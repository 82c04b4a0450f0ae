/-
JSON values over JavaScript strings, their text with the keys of an object in any order, and the parser
of that text: what was written is read back as the same value, so the text determines the value. Two
values are the same up to the order of keys and the sign of zero.
-/
import Xahc.Data.JsonNumber
import Xahc.Data.Utf16
import Mathlib.Order.Lattice
import Mathlib.Data.List.Lex

namespace Xahc.Data

/-! ## Values -/

/-- A JSON value; the first of the fields with a key is the object's own. -/
inductive JsonValue
  | null
  | bool (b : Bool)
  | num (n : JsNum)
  | str (s : JsStr)
  | arr (xs : List JsonValue)
  | obj (fields : List (JsStr × JsonValue))
  deriving Repr

namespace JsonValue

mutual

/-- A value that the model has with characters for code units. -/
def ofJson : Json → JsonValue
  | .null => null
  | .bool b => bool b
  | .num n => num n
  | .str s => str (utf16 s)
  | .arr xs => arr (ofElems xs)
  | .obj fields => obj (ofFields fields)

/-- The elements of an array as values. -/
def ofElems : List Json → List JsonValue
  | [] => []
  | x :: xs => ofJson x :: ofElems xs

/-- The fields of an object as values, in their order. -/
def ofFields : List (String × Json) → List (JsStr × JsonValue)
  | [] => []
  | (k, x) :: fields => (utf16 k, ofJson x) :: ofFields fields

end

/-- A string as a value. -/
def ofString (s : String) : JsonValue := str (utf16 s)

/-- A number as a value. -/
def ofNat (n : Nat) : JsonValue := num (.normalize false n 0)

/-- An object literal; a field that is undefined is not there. -/
def ofEntries (entries : List (String × Option JsonValue)) : JsonValue :=
  obj (entries.filterMap fun e => e.2.map fun v => (utf16 e.1, v))

/-- `v[k]`; absent in a value that is no object. -/
def get (v : JsonValue) (k : String) : Option JsonValue :=
  match v with
  | obj fields => fields.lookup (utf16 k)
  | _ => none

/-- The text of a field, where it is a string. -/
def getString (v : JsonValue) (k : String) : Option JsStr :=
  match v.get k with
  | some (str s) => some s
  | _ => none

/-- `v ?? null`. -/
def orNull (v : Option JsonValue) : JsonValue := v.getD null

/-- Induction over a value: an array over its elements, an object over the values of its fields. -/
theorem ind {P : JsonValue → Prop} (hnull : P null) (hbool : ∀ b, P (bool b)) (hnum : ∀ n, P (num n))
    (hstr : ∀ s, P (str s)) (harr : ∀ xs, (∀ x ∈ xs, P x) → P (arr xs))
    (hobj : ∀ fields, (∀ f ∈ fields, P f.2) → P (obj fields)) : ∀ v, P v :=
  @JsonValue.rec P (fun xs => ∀ x ∈ xs, P x) (fun fs => ∀ f ∈ fs, P f.2) (fun f => P f.2) hnull hbool hnum hstr harr hobj
    (fun _ h => nomatch h) (fun _ _ hx hxs => List.forall_mem_cons.2 ⟨hx, hxs⟩)
    (fun _ h => nomatch h) (fun _ _ hf hfs => List.forall_mem_cons.2 ⟨hf, hfs⟩) (fun _ _ hv => hv)

/-- The same value: the order of the keys of an object and the sign of zero are left out. -/
inductive Same : JsonValue → JsonValue → Prop
  | null : Same null null
  | bool (b : Bool) : Same (bool b) (bool b)
  | num {n m : JsNum} : n = m ∨ (n.digits = 0 ∧ m.digits = 0) → Same (num n) (num m)
  | str (s : JsStr) : Same (str s) (str s)
  | arr {xs ys : List JsonValue} : xs.length = ys.length →
      (∀ (i : Nat) (x y : JsonValue), xs[i]? = some x → ys[i]? = some y → Same x y) → Same (arr xs) (arr ys)
  | obj {fs gs : List (JsStr × JsonValue)} : (∀ k, fs.lookup k = none ↔ gs.lookup k = none) →
      (∀ k x y, fs.lookup k = some x → gs.lookup k = some y → Same x y) → Same (obj fs) (obj gs)

@[refl] theorem Same.refl (v : JsonValue) : Same v v := by
  induction v using ind with
  | hnull => exact .null
  | hbool b => exact .bool b
  | hnum n => exact .num (.inl rfl)
  | hstr s => exact .str s
  | harr xs ih =>
    refine .arr rfl fun i x y hx hy => ?_
    obtain rfl := Option.some.inj (hx.symm.trans hy)
    exact ih x (List.mem_of_getElem? hx)
  | hobj fields ih =>
    refine .obj (fun k => Iff.rfl) fun k x y hx hy => ?_
    obtain rfl := Option.some.inj (hx.symm.trans hy)
    obtain ⟨before, after, rfl, -⟩ := List.lookup_eq_some_iff.1 hx
    exact ih (k, x) (by simp)

@[symm] theorem Same.symm {v w : JsonValue} (h : Same v w) : Same w v := by
  induction h with
  | null => exact .null
  | bool b => exact .bool b
  | num h => exact .num (h.imp Eq.symm And.symm)
  | str s => exact .str s
  | arr hlen _ ih => exact .arr hlen.symm fun i x y hx hy => ih i y x hy hx
  | obj hkeys _ ih => exact .obj (fun k => (hkeys k).symm) fun k x y hx hy => ih k y x hy hx

theorem Same.trans {u v w : JsonValue} (h : Same u v) : Same v w → Same u w := by
  induction h generalizing w with
  | null => exact id
  | bool b => exact id
  | str s => exact id
  | num huv =>
    intro h
    cases h with
    | num hvw =>
      refine .num ?_
      -- the same number, or both sides zero
      rcases huv with rfl | huv
      · exact hvw
      · rcases hvw with rfl | hvw
        · exact .inr huv
        · exact .inr ⟨huv.1, hvw.2⟩
  | @arr xs ys hlen _ ih =>
    intro h
    cases h with
    | @arr _ zs hlen' helems =>
      refine .arr (hlen.trans hlen') fun i x z hx hz => ?_
      have hi : i < ys.length := by
        rw [hlen']
        exact (List.getElem?_eq_some_iff.1 hz).1
      exact ih i x ys[i] hx (List.getElem?_eq_getElem hi) (helems i _ z (List.getElem?_eq_getElem hi) hz)
  | @obj fs gs hkeys _ ih =>
    intro h
    cases h with
    | @obj _ hs hkeys' hvals =>
      refine .obj (fun k => (hkeys k).trans (hkeys' k)) fun k x z hx hz => ?_
      cases hy : gs.lookup k with
      | none => exact absurd ((hkeys k).2 hy) (by simp [hx])
      | some y => exact ih k x y hx hy (hvals k y z hy hz)

/-- The same objects have the same fields. -/
theorem Same.get {v w : JsonValue} (h : Same v w) (k : String) : Same (orNull (v.get k)) (orNull (w.get k)) := by
  cases h with
  | null | bool | num | str | arr => rfl
  | @obj fs gs hkeys hvals =>
    show Same ((fs.lookup (utf16 k)).getD .null) ((gs.lookup (utf16 k)).getD .null)
    cases hx : fs.lookup (utf16 k) with
    | none => rw [(hkeys _).1 hx]
    | some x =>
      cases hy : gs.lookup (utf16 k) with
      | none => exact absurd ((hkeys _).2 hy) (by simp [hx])
      | some y => exact hvals _ x y hx hy

theorem Same.getString {v w : JsonValue} (h : Same v w) (k : String) : v.getString k = w.getString k := by
  have hget := h.get k
  unfold JsonValue.getString
  cases hv : v.get k with
  | none =>
    rw [hv] at hget
    cases hw : w.get k with
    | none => rfl
    | some y =>
      rw [hw] at hget
      cases y with
      | str s => cases hget
      | _ => rfl
  | some x =>
    rw [hv] at hget
    cases hw : w.get k with
    | none =>
      rw [hw] at hget
      cases x with
      | str s => cases hget
      | _ => rfl
    | some y =>
      rw [hw] at hget
      cases hget with
      | str s => rfl
      | _ => rfl

/-- Objects with the same values under the same keys, key by key. -/
theorem Same.obj_of_forall₂ {fs gs : List (JsStr × JsonValue)}
    (h : List.Forall₂ (fun f g => f.1 = g.1 ∧ f.2.Same g.2) fs gs) : Same (.obj fs) (.obj gs) := by
  have hlookup : ∀ k, (fs.lookup k = none ↔ gs.lookup k = none) ∧
      ∀ x y, fs.lookup k = some x → gs.lookup k = some y → x.Same y := by
    intro k
    induction h with
    | nil => exact ⟨Iff.rfl, fun _ _ hx => nomatch hx⟩
    | @cons f g fs gs hfg _ ih =>
      rw [List.lookup_cons, List.lookup_cons, ← hfg.1]
      by_cases hk : k = f.1
      · rw [beq_iff_eq.2 hk]
        refine ⟨by simp, fun x y hx hy => ?_⟩
        obtain rfl := Option.some.inj hx
        obtain rfl := Option.some.inj hy
        exact hfg.2
      · rw [beq_false_of_ne hk]
        exact ih
  exact .obj (fun k => (hlookup k).1) fun k => (hlookup k).2

end JsonValue

/-! ## Fields -/

section
variable {α β : Type}

/-- The fields of an object: the first with each key. -/
def ownFields : List (JsStr × α) → List (JsStr × α)
  | [] => []
  | f :: fs => f :: (ownFields fs).filter fun g => g.1 ≠ f.1

theorem ownFields_nodup (fs : List (JsStr × α)) : ((ownFields fs).map Prod.fst).Nodup := by
  induction fs with
  | nil => exact List.nodup_nil
  | cons f fs ih =>
    rw [ownFields, List.map_cons, List.nodup_cons]
    refine ⟨fun hmem => ?_, ih.sublist (List.filter_sublist.map _)⟩
    obtain ⟨g, hg, hk⟩ := List.mem_map.1 hmem
    simpa [hk] using (List.mem_filter.1 hg).2

theorem lookup_filter_ne (fs : List (JsStr × α)) {j k : JsStr} (h : k ≠ j) :
    (fs.filter fun g => g.1 ≠ j).lookup k = fs.lookup k := by
  induction fs with
  | nil => rfl
  | cons f fs ih =>
    obtain ⟨i, x⟩ := f
    by_cases hi : i = j
    · subst hi
      rw [List.filter_cons_of_neg (by simp), ih, List.lookup_cons, beq_false_of_ne h]
    · rw [List.filter_cons_of_pos (by simpa using hi), List.lookup_cons, List.lookup_cons, ih]

theorem lookup_ownFields (fs : List (JsStr × α)) (k : JsStr) : (ownFields fs).lookup k = fs.lookup k := by
  induction fs with
  | nil => rfl
  | cons f fs ih =>
    obtain ⟨i, x⟩ := f
    rw [ownFields, List.lookup_cons, List.lookup_cons]
    by_cases hk : k = i
    · rw [beq_iff_eq.2 hk]
    · rw [beq_false_of_ne hk, lookup_filter_ne _ hk, ih]

/-- Among fields with distinct keys, a field is what its key finds. -/
theorem mem_iff_lookup {fs : List (JsStr × α)} (hnodup : (fs.map Prod.fst).Nodup) {k : JsStr} {x : α} :
    (k, x) ∈ fs ↔ fs.lookup k = some x := by
  induction fs with
  | nil => simp
  | cons f fs ih =>
    obtain ⟨i, y⟩ := f
    rw [List.map_cons, List.nodup_cons] at hnodup
    rw [List.mem_cons, List.lookup_cons, ih hnodup.2]
    by_cases hk : k = i
    · subst hk
      have hnone : fs.lookup k ≠ some x := fun h =>
        hnodup.1 (List.mem_map.2 ⟨(k, x), (ih hnodup.2).2 h, rfl⟩)
      simp [hnone, eq_comm]
    · simp [hk, beq_false_of_ne hk]

theorem lookup_eq_none_iff_keys {fs : List (JsStr × α)} {k : JsStr} : fs.lookup k = none ↔ k ∉ fs.map Prod.fst := by
  induction fs with
  | nil => simp
  | cons f fs ih =>
    rw [List.lookup_cons, List.map_cons, List.mem_cons, not_or, ← ih]
    by_cases hk : k = f.1
    · simp [hk]
    · simp [hk, beq_false_of_ne hk]

/-- A field that is read later takes the place of an earlier one with its key. -/
def insertField (fs : List (JsStr × α)) (f : JsStr × α) : List (JsStr × α) :=
  if f.1 ∈ fs.map Prod.fst then fs.map fun g => if g.1 = f.1 then f else g else fs ++ [f]

theorem lookup_insertField (fs : List (JsStr × α)) (f : JsStr × α) (k : JsStr) :
    (insertField fs f).lookup k = if k = f.1 then some f.2 else fs.lookup k := by
  unfold insertField
  split_ifs with hmem hk hk
  · -- the field of that key is replaced
    subst hk
    induction fs with
    | nil => cases hmem
    | cons g fs ih =>
      rw [List.map_cons, List.lookup_cons]
      by_cases hg : g.1 = f.1
      · simp [hg]
      · have hne : (f.1 == g.1) = false := beq_false_of_ne (Ne.symm hg)
        rw [if_neg hg, hne]
        exact ih ((List.mem_cons.1 hmem).resolve_left (Ne.symm hg))
  · clear hmem
    induction fs with
    | nil => rfl
    | cons g fs ih =>
      rw [List.map_cons, List.lookup_cons, List.lookup_cons, ih]
      by_cases hg : g.1 = f.1
      · simp [hg, beq_false_of_ne hk]
      · rw [if_neg hg]
  · subst hk
    rw [List.lookup_append, lookup_eq_none_iff_keys.2 hmem, List.lookup_cons_self]
    rfl
  · rw [List.lookup_append, List.lookup_cons, beq_false_of_ne hk]
    simp

theorem foldl_insertField {fs : List (JsStr × α)} : ∀ {gs : List (JsStr × α)}, ((gs ++ fs).map Prod.fst).Nodup →
    fs.foldl insertField gs = gs ++ fs := by
  induction fs with
  | nil => exact fun _ => (List.append_nil _).symm
  | cons f fs ih =>
    intro gs hnodup
    have hfresh : f.1 ∉ gs.map Prod.fst := by
      rw [List.map_append, List.map_cons, List.nodup_append] at hnodup
      exact fun hmem => hnodup.2.2 f.1 hmem f.1 List.mem_cons_self rfl
    rw [List.foldl_cons, insertField, if_neg hfresh, ih (by simpa using hnodup), List.append_assoc, List.singleton_append]

end

/-! ## Text -/

/-- The fields of an object in some order, each with its text. -/
abbrev KeyOrder := List (JsStr × List Char) → List (JsStr × List Char)

/-- The text of a field: its quoted key and its value. -/
def fieldText (f : JsStr × List Char) : List Char := quote f.1 ++ ':' :: f.2

mutual

/-- The text of a value without white space, the keys of each object in the given order. -/
def stringify (order : KeyOrder) : JsonValue → List Char
  | .null => ['n', 'u', 'l', 'l']
  | .bool b => if b then ['t', 'r', 'u', 'e'] else ['f', 'a', 'l', 's', 'e']
  | .num n => n.toStr.toList
  | .str s => quote s
  | .arr xs => '[' :: [','].intercalate (stringifyElems order xs) ++ [']']
  | .obj fields => '{' :: [','].intercalate ((order (ownFields (stringifyFields order fields))).map fieldText) ++ ['}']

/-- The texts of the elements of an array. -/
def stringifyElems (order : KeyOrder) : List JsonValue → List (List Char)
  | [] => []
  | x :: xs => stringify order x :: stringifyElems order xs

/-- The texts of the values of an object under their keys. -/
def stringifyFields (order : KeyOrder) : List (JsStr × JsonValue) → List (JsStr × List Char)
  | [] => []
  | (k, x) :: fields => (k, stringify order x) :: stringifyFields order fields

end

/-- `JSON.stringify(v)`: the keys in the object's own order. -/
def jsonStringify : JsonValue → List Char := stringify id

theorem stringifyElems_eq (order : KeyOrder) (xs : List JsonValue) :
    stringifyElems order xs = xs.map (stringify order) := by
  induction xs with
  | nil => rfl
  | cons x xs ih => rw [stringifyElems, ih, List.map_cons]

theorem lookup_stringifyFields (order : KeyOrder) (fields : List (JsStr × JsonValue)) (k : JsStr) :
    (stringifyFields order fields).lookup k = (fields.lookup k).map (stringify order) := by
  induction fields with
  | nil => rfl
  | cons f fields ih =>
    rw [stringifyFields, List.lookup_cons, List.lookup_cons, ih]
    split <;> rfl

/-! ## Parsing -/

/-- The white space of JSON. -/
def isJsonSpace (c : Char) : Bool := c = ' ' || c = '\t' || c = '\n' || c = '\r'

/-- What comes after white space. -/
def skipSpace (s : List Char) : List Char := s.dropWhile isJsonSpace

/-- A literal, after its first letter. -/
def readLiteral (rest : List Char) (v : JsonValue) (s : List Char) : Option (JsonValue × List Char) :=
  if rest.isPrefixOf s then some (v, s.drop rest.length) else none

/-- After one element or field: a comma and the next ones, or the end. -/
def readMore {α : Type} (close : Char) (next : List Char → Option (List α × List Char)) (x : α) (s : List Char) :
    Option (List α × List Char) :=
  match skipSpace s with
  | [] => none
  | c :: s => if c = ',' then (next s).map fun r => (x :: r.1, r.2) else if c = close then some ([x], s) else none

mutual

/-- One value, read with at most the given number of nested calls. -/
def readValue : Nat → List Char → Option (JsonValue × List Char)
  | 0, _ => none
  | n + 1, s =>
    match skipSpace s with
    | [] => none
    | c :: s =>
      -- dispatch on the first character, as in the grammar
      if c = '"' then (readString s).map fun r => (.str r.1, r.2)
      else if c = '[' then
        match skipSpace s with
        | ']' :: s => some (.arr [], s)
        | s => (readElems n s).map fun r => (.arr r.1, r.2)
      else if c = '{' then
        match skipSpace s with
        | '}' :: s => some (.obj [], s)
        -- a repeated key keeps its place and takes the later value
        | s => (readFields n s).map fun r => (.obj (r.1.foldl insertField []), r.2)
      else if c = 'n' then readLiteral ['u', 'l', 'l'] .null s
      else if c = 't' then readLiteral ['r', 'u', 'e'] (.bool true) s
      else if c = 'f' then readLiteral ['a', 'l', 's', 'e'] (.bool false) s
      else (readNumber (c :: s)).map fun r => (.num r.1, r.2)

/-- The elements of an array, to its closing bracket. -/
def readElems : Nat → List Char → Option (List JsonValue × List Char)
  | 0, _ => none
  | n + 1, s =>
    (readValue n s).bind fun x => readMore ']' (readElems n) x.1 x.2

/-- The fields of an object, to its closing brace. -/
def readFields : Nat → List Char → Option (List (JsStr × JsonValue) × List Char)
  | 0, _ => none
  | n + 1, s =>
    match skipSpace s with
    | '"' :: s =>
      (readString s).bind fun k =>
        match skipSpace k.2 with
        | ':' :: s => (readValue n s).bind fun x => readMore '}' (readFields n) (k.1, x.1) x.2
        | _ => none
    | _ => none

end

/-- `JSON.parse(s)`; every nested call reads at least half a character. -/
def jsonParse (s : List Char) : Option JsonValue :=
  (readValue (2 * s.length + 1) s).bind fun r => if skipSpace r.2 = [] then some r.1 else none

/-! ## What was written is read back -/

theorem skipSpace_cons {c : Char} (h : isJsonSpace c = false) (s : List Char) : skipSpace (c :: s) = c :: s :=
  List.dropWhile_cons_of_neg (by simp [h])

theorem readMore_comma {α : Type} (close : Char) (next : List Char → Option (List α × List Char)) (x : α) (s : List Char) :
    readMore close next x (',' :: s) = (next s).map fun r => (x :: r.1, r.2) := by
  rw [readMore, skipSpace_cons (by decide)]
  exact if_pos rfl

theorem readMore_close {α : Type} {close : Char} (next : List Char → Option (List α × List Char)) (x : α) (s : List Char)
    (hspace : isJsonSpace close = false) (hcomma : close ≠ ',') :
    readMore close next x (close :: s) = some ([x], s) := by
  rw [readMore, skipSpace_cons hspace]
  exact (if_neg hcomma).trans (if_pos rfl)

/-- The text is read back as the same value, where nothing goes on with it. -/
def Reads (text : List Char) (v : JsonValue) : Prop :=
  ∀ n rest, 2 * text.length ≤ n → Stops rest → ∃ w, readValue n (text ++ rest) = some (w, rest) ∧ v.Same w

/-- A character that starts a value. -/
structure StartsValue (c : Char) : Prop where
  space : isJsonSpace c = false
  bracket : c ≠ ']'

section
variable (order : KeyOrder)

theorem toStr_starts (n : JsNum) : ∃ c s, n.toStr.toList = c :: s ∧ (c = '-' ∨ c.isDigit = true) := by
  obtain ⟨body, htext, int, frac, exp, z, rfl, hint, hne, -⟩ := toStr_writes n
  cases int with
  | nil => exact absurd rfl hne
  | cons c int =>
    rw [htext]
    split_ifs
    · exact ⟨'-', _, rfl, .inl rfl⟩
    · exact ⟨c, _, rfl, .inr (hint c List.mem_cons_self)⟩

/-- A character of a number is none of those that other values, and what comes after a value, start with. -/
theorem number_char {c : Char} (h : c = '-' ∨ c.isDigit = true) {d : Char} (hd : d.isDigit = false) (hm : d ≠ '-') :
    c ≠ d := by
  rintro rfl
  rcases h with rfl | h
  · exact hm rfl
  · rw [hd] at h
    cases h

theorem number_space {c : Char} (h : c = '-' ∨ c.isDigit = true) : isJsonSpace c = false := by
  have hne : ∀ d : Char, d.isDigit = false → d ≠ '-' → c ≠ d := fun d => number_char h
  simp only [isJsonSpace, Bool.or_eq_false_iff, decide_eq_false_iff_not]
  exact ⟨⟨⟨hne _ (by decide) (by decide), hne _ (by decide) (by decide)⟩, hne _ (by decide) (by decide)⟩,
    hne _ (by decide) (by decide)⟩

theorem stringify_starts (v : JsonValue) : ∃ c s, stringify order v = c :: s ∧ StartsValue c := by
  cases v with
  | null => exact ⟨_, _, rfl, by decide, by decide⟩
  | bool b => cases b <;> exact ⟨_, _, rfl, by decide, by decide⟩
  | str s => exact ⟨_, _, rfl, by decide, by decide⟩
  | arr xs => exact ⟨_, _, rfl, by decide, by decide⟩
  | obj fields => exact ⟨_, _, rfl, by decide, by decide⟩
  | num n =>
    obtain ⟨c, s, htext, hc⟩ := toStr_starts n
    exact ⟨c, s, htext, number_space hc, number_char hc (by decide) (by decide)⟩

theorem reads_null : Reads ['n', 'u', 'l', 'l'] .null := by
  intro n rest hn _
  obtain ⟨n, rfl⟩ : ∃ k, n = k + 1 := ⟨n - 1, by simp at hn; omega⟩
  exact ⟨.null, rfl, .null⟩

theorem reads_bool (b : Bool) : Reads (if b then ['t', 'r', 'u', 'e'] else ['f', 'a', 'l', 's', 'e']) (.bool b) := by
  intro n rest hn _
  obtain ⟨n, rfl⟩ : ∃ k, n = k + 1 := ⟨n - 1, by cases b <;> simp at hn <;> omega⟩
  cases b <;> exact ⟨_, rfl, .bool _⟩

theorem reads_str (s : JsStr) : Reads (quote s) (.str s) := by
  intro n rest hn _
  obtain ⟨body, htext, hbody⟩ := readString_quote s rest
  obtain ⟨n, rfl⟩ : ∃ k, n = k + 1 := ⟨n - 1, by simp [quote] at hn; omega⟩
  refine ⟨.str s, ?_, .str s⟩
  rw [htext, readValue, skipSpace_cons (by decide)]
  dsimp only
  rw [if_pos rfl, hbody]
  rfl

theorem reads_num (m : JsNum) : Reads m.toStr.toList (.num m) := by
  intro n rest hn hrest
  obtain ⟨c, s, htext, hc⟩ := toStr_starts m
  have hread := readNumber_toStr m hrest
  rw [htext] at hn hread ⊢
  obtain ⟨n, rfl⟩ : ∃ k, n = k + 1 := ⟨n - 1, by simp at hn; omega⟩
  have hne : ∀ d : Char, d.isDigit = false → d ≠ '-' → c ≠ d := fun d => number_char hc
  refine ⟨.num m.unsignZero, ?_, .num ?_⟩
  · rw [List.cons_append] at hread ⊢
    -- its first character opens no other kind of value
    rw [readValue, skipSpace_cons (number_space hc)]
    dsimp only
    rw [if_neg (hne _ (by decide) (by decide)), if_neg (hne _ (by decide) (by decide)),
      if_neg (hne _ (by decide) (by decide)), if_neg (hne _ (by decide) (by decide)),
      if_neg (hne _ (by decide) (by decide)), if_neg (hne _ (by decide) (by decide)), hread]
    rfl
  · unfold JsNum.unsignZero
    split_ifs with hzero
    · exact .inr ⟨hzero, rfl⟩
    · exact .inl rfl

/-- The elements of an array are read back one by one. -/
theorem reads_elems : ∀ {xs : List JsonValue}, xs ≠ [] → (∀ x ∈ xs, Reads (stringify order x) x) → ∀ n rest,
    2 * ([','].intercalate (stringifyElems order xs)).length + 1 ≤ n →
    ∃ ys, readElems n ([','].intercalate (stringifyElems order xs) ++ ']' :: rest) = some (ys, rest) ∧
      List.Forall₂ JsonValue.Same xs ys
  | [], hne, _, _, _, _ => absurd rfl hne
  | [x], _, hx, n, rest, hn => by
    obtain ⟨n, rfl⟩ : ∃ k, n = k + 1 := ⟨n - 1, by omega⟩
    simp only [stringifyElems, List.intercalate_singleton] at hn ⊢
    obtain ⟨y, hread, hsame⟩ := hx x List.mem_cons_self n (']' :: rest) (by omega) (by simp [Stops])
    refine ⟨[y], ?_, .cons hsame .nil⟩
    rw [readElems, hread, Option.bind_some, readMore_close _ _ _ (by decide) (by decide)]
  | x :: x' :: xs, _, hx, n, rest, hn => by
    obtain ⟨n, rfl⟩ : ∃ k, n = k + 1 := ⟨n - 1, by omega⟩
    have hcons : [','].intercalate (stringifyElems order (x :: x' :: xs)) =
        stringify order x ++ ',' :: [','].intercalate (stringifyElems order (x' :: xs)) := by
      simp only [stringifyElems, List.intercalate_cons_cons, List.append_assoc, List.singleton_append]
    rw [hcons] at hn ⊢
    rw [List.length_append, List.length_cons] at hn
    obtain ⟨y, hread, hsame⟩ := hx x List.mem_cons_self n
      (',' :: [','].intercalate (stringifyElems order (x' :: xs)) ++ ']' :: rest) (by omega) (by simp [Stops])
    obtain ⟨ys, hreads, hsames⟩ := reads_elems (List.cons_ne_nil x' xs) (fun z hz => hx z (List.mem_cons_of_mem _ hz)) n rest
      (by omega)
    refine ⟨y :: ys, ?_, .cons hsame hsames⟩
    rw [List.append_assoc, readElems, hread, Option.bind_some, List.cons_append, readMore_comma, hreads]
    rfl

/-- One field is read back, and what follows it goes on from there. -/
theorem readFields_fieldText (k : JsStr) {t : List Char} {x : JsonValue} (hx : Reads t x) {n : Nat} (hn : 2 * t.length ≤ n)
    (rest : List Char) (hrest : Stops rest) :
    ∃ w, x.Same w ∧ readFields (n + 1) (fieldText (k, t) ++ rest) = readMore '}' (readFields n) (k, w) rest := by
  obtain ⟨body, htext, hbody⟩ := readString_quote k (':' :: t ++ rest)
  obtain ⟨w, hread, hsame⟩ := hx n rest hn hrest
  refine ⟨w, hsame, ?_⟩
  have hfield : fieldText (k, t) ++ rest = '"' :: body := by
    rw [← htext, fieldText, List.append_assoc]
  simp only [hfield, readFields, skipSpace_cons (show isJsonSpace '"' = false by decide), hbody, Option.bind_some,
    List.cons_append, skipSpace_cons (show isJsonSpace ':' = false by decide), hread]

/-- The fields of an object are read back one by one, each as the value that its key finds. -/
theorem reads_fields {fields : List (JsStr × JsonValue)} : ∀ {ts : List (JsStr × List Char)}, ts ≠ [] →
    (∀ t ∈ ts, ∃ x, fields.lookup t.1 = some x ∧ Reads t.2 x) → ∀ n rest,
    2 * ([','].intercalate (ts.map fieldText)).length + 1 ≤ n →
    ∃ gs, readFields n ([','].intercalate (ts.map fieldText) ++ '}' :: rest) = some (gs, rest) ∧
      gs.map Prod.fst = ts.map Prod.fst ∧ ∀ g ∈ gs, ∃ x, fields.lookup g.1 = some x ∧ x.Same g.2
  | [], hne, _, _, _, _ => absurd rfl hne
  -- the last field is closed by the brace, every other one is followed by a comma
  | [(k, t)], _, ht, n, rest, hn => by
    obtain ⟨n, rfl⟩ : ∃ k, n = k + 1 := ⟨n - 1, by omega⟩
    simp only [List.map_cons, List.map_nil, List.intercalate_singleton] at hn ⊢
    obtain ⟨x, hlookup, hx⟩ := ht _ List.mem_cons_self
    have hlen : 2 * t.length ≤ n := by
      rw [fieldText, List.length_append, List.length_cons] at hn
      dsimp only at hn
      omega
    obtain ⟨w, hsame, hread⟩ := readFields_fieldText k hx hlen ('}' :: rest) (by simp [Stops])
    refine ⟨[(k, w)], ?_, rfl, ?_⟩
    · rw [hread, readMore_close _ _ _ (by decide) (by decide)]
    · intro g hg
      rw [List.mem_singleton.1 hg]
      exact ⟨x, hlookup, hsame⟩
  | (k, t) :: t' :: ts, _, ht, n, rest, hn => by
    obtain ⟨n, rfl⟩ : ∃ k, n = k + 1 := ⟨n - 1, by omega⟩
    have hcons : [','].intercalate (((k, t) :: t' :: ts).map fieldText) =
        fieldText (k, t) ++ ',' :: [','].intercalate ((t' :: ts).map fieldText) := by
      simp only [List.map_cons, List.intercalate_cons_cons, List.append_assoc, List.singleton_append]
    rw [hcons] at hn ⊢
    rw [List.length_append, List.length_cons] at hn
    obtain ⟨x, hlookup, hx⟩ := ht _ List.mem_cons_self
    have hlen : 2 * t.length ≤ n := by
      rw [fieldText, List.length_append, List.length_cons] at hn
      dsimp only at hn
      omega
    obtain ⟨w, hsame, hread⟩ := readFields_fieldText k hx hlen
      (',' :: [','].intercalate ((t' :: ts).map fieldText) ++ '}' :: rest) (by simp [Stops])
    obtain ⟨gs, hreads, hkeys, hvals⟩ := reads_fields (List.cons_ne_nil t' ts)
      (fun u hu => ht u (List.mem_cons_of_mem _ hu)) n rest (by omega)
    refine ⟨(k, w) :: gs, ?_, by rw [List.map_cons, hkeys]; rfl, ?_⟩
    · rw [List.append_assoc, hread, List.cons_append, readMore_comma, hreads]
      rfl
    · intro g hg
      rcases List.mem_cons.1 hg with rfl | hg
      · exact ⟨x, hlookup, hsame⟩
      · exact hvals g hg

/-- The key order only moves fields. -/
def Permutes : Prop := ∀ l, (order l).Perm l

variable {order}

theorem elems_starts (order : KeyOrder) {xs : List JsonValue} (hne : xs ≠ []) :
    ∃ c s, [','].intercalate (stringifyElems order xs) = c :: s ∧ StartsValue c := by
  obtain ⟨x, xs, rfl⟩ := List.exists_cons_of_ne_nil hne
  obtain ⟨c, s, htext, hc⟩ := stringify_starts order x
  cases xs with
  | nil => exact ⟨c, s, by simp [stringifyElems, htext], hc⟩
  | cons y ys =>
    refine ⟨c, s ++ [','] ++ [','].intercalate (stringifyElems order (y :: ys)), ?_, hc⟩
    simp [stringifyElems, List.intercalate_cons_cons, htext]

theorem fields_start {ts : List (JsStr × List Char)} (hne : ts ≠ []) (rest : List Char) :
    ∃ s, [','].intercalate (ts.map fieldText) ++ rest = '"' :: s := by
  obtain ⟨t, ts, rfl⟩ := List.exists_cons_of_ne_nil hne
  cases ts with
  | nil => exact ⟨_, by simp [fieldText, quote]; rfl⟩
  | cons u us => exact ⟨_, by simp [fieldText, quote, List.intercalate_cons_cons]; rfl⟩

theorem reads_arr {xs : List JsonValue} (hx : ∀ x ∈ xs, Reads (stringify order x) x) :
    Reads (stringify order (.arr xs)) (.arr xs) := by
  intro n rest hn _
  obtain ⟨n, rfl⟩ : ∃ k, n = k + 1 := ⟨n - 1, by rw [stringify] at hn; simp at hn; omega⟩
  by_cases hne : xs = []
  · subst hne
    exact ⟨.arr [], rfl, .refl _⟩
  · obtain ⟨ys, hread, hsame⟩ := reads_elems order hne hx n rest (by rw [stringify] at hn; simp at hn; omega)
    obtain ⟨c, s, htext, hc⟩ := elems_starts order hne
    have hopen : stringify order (.arr xs) ++ rest = '[' :: ([','].intercalate (stringifyElems order xs) ++ ']' :: rest) := by
      simp [stringify]
    refine ⟨.arr ys, ?_, .arr hsame.length_eq fun i x y hx hy => ?_⟩
    · rw [htext] at hread
      simp only [hopen, readValue, skipSpace_cons (show isJsonSpace '[' = false by decide), htext, List.cons_append,
        skipSpace_cons hc.space]
      rw [if_neg (by decide), if_pos trivial]
      split
      · rename_i heq
        exact absurd (List.cons.inj heq).1 hc.bracket
      · rw [← List.cons_append, hread]
        rfl
    · obtain ⟨hi, rfl⟩ := List.getElem?_eq_some_iff.1 hx
      obtain ⟨hj, rfl⟩ := List.getElem?_eq_some_iff.1 hy
      exact hsame.get hi hj

/-- In order, and each key once, the fields are still those of the object. -/
theorem mem_ordered (horder : Permutes order) {fields : List (JsStr × JsonValue)} (hx : ∀ f ∈ fields, Reads (stringify order f.2) f.2)
    {t : JsStr × List Char} (ht : t ∈ order (ownFields (stringifyFields order fields))) :
    ∃ x, fields.lookup t.1 = some x ∧ Reads t.2 x := by
  have hmem := (horder _).mem_iff.1 ht
  have hlookup := (mem_iff_lookup (ownFields_nodup _)).1 hmem
  rw [lookup_ownFields, lookup_stringifyFields] at hlookup
  obtain ⟨x, hfound, htext⟩ := Option.map_eq_some_iff.1 hlookup
  obtain ⟨before, after, hfields, -⟩ := List.lookup_eq_some_iff.1 hfound
  refine ⟨x, hfound, htext ▸ hx (t.1, x) ?_⟩
  rw [hfields]
  exact List.mem_append_right _ List.mem_cons_self

theorem keys_ordered (horder : Permutes order) (fields : List (JsStr × JsonValue)) (k : JsStr) :
    k ∈ (order (ownFields (stringifyFields order fields))).map Prod.fst ↔ fields.lookup k ≠ none := by
  rw [((horder _).map Prod.fst).mem_iff, ← not_iff_not, not_not, ← lookup_eq_none_iff_keys, lookup_ownFields,
    lookup_stringifyFields, Option.map_eq_none_iff]

theorem reads_obj (horder : Permutes order) {fields : List (JsStr × JsonValue)} (hx : ∀ f ∈ fields, Reads (stringify order f.2) f.2) :
    Reads (stringify order (.obj fields)) (.obj fields) := by
  intro n rest hn _
  obtain ⟨n, rfl⟩ : ∃ k, n = k + 1 := ⟨n - 1, by rw [stringify] at hn; simp at hn; omega⟩
  have hkeys := keys_ordered horder fields
  by_cases hne : order (ownFields (stringifyFields order fields)) = []
  · refine ⟨.obj [], ?_, .obj (fun k => ?_) fun k x y hx hy => nomatch hy⟩
    · rw [stringify, hne]
      rfl
    · have hnone : ¬fields.lookup k ≠ none := by
        rw [← hkeys k, hne]
        exact fun hmem => nomatch hmem
      exact iff_of_true (not_not.1 hnone) rfl
  · obtain ⟨gs, hread, hfst, hvals⟩ := reads_fields hne (fun t ht => mem_ordered horder hx ht) n rest
      (by rw [stringify] at hn; simp at hn; omega)
    -- no key was written twice, so none is overwritten on the way back
    have hnodup : (gs.map Prod.fst).Nodup := by
      rw [hfst]
      exact ((horder _).map Prod.fst).nodup_iff.2 (ownFields_nodup _)
    have hopen : stringify order (.obj fields) ++ rest = '{' ::
        ([','].intercalate ((order (ownFields (stringifyFields order fields))).map fieldText) ++ '}' :: rest) := by
      simp [stringify]
    obtain ⟨s, htext⟩ : ∃ s, [','].intercalate ((order (ownFields (stringifyFields order fields))).map fieldText) ++
        '}' :: rest = '"' :: s := fields_start hne _
    refine ⟨.obj gs, ?_, .obj (fun k => ?_) fun k x y hx hy => ?_⟩
    · simp only [hopen, readValue, skipSpace_cons (show isJsonSpace '{' = false by decide), htext,
        skipSpace_cons (show isJsonSpace '"' = false by decide)]
      rw [if_neg (by decide), if_neg (by decide), if_pos trivial]
      split
      · rename_i heq
        exact absurd (List.cons.inj heq).1 (by decide)
      · rw [← htext, hread, Option.map_some, foldl_insertField (by simpa using hnodup), List.nil_append]
    · rw [← not_iff_not, ← ne_eq, ← hkeys k, ← hfst, lookup_eq_none_iff_keys, not_not]
    · obtain ⟨x', hx', hsame⟩ := hvals (k, y) ((mem_iff_lookup hnodup).2 hy)
      obtain rfl := Option.some.inj (hx.symm.trans hx')
      exact hsame

theorem reads_stringify (horder : Permutes order) (v : JsonValue) : Reads (stringify order v) v := by
  induction v using JsonValue.ind with
  | hnull => exact reads_null
  | hbool b => exact reads_bool b
  | hnum n => exact reads_num n
  | hstr s => exact reads_str s
  | harr xs ih => exact reads_arr ih
  | hobj fields ih => exact reads_obj horder ih

/-- The text of a value is parsed as the same value. -/
theorem jsonParse_stringify (horder : Permutes order) (v : JsonValue) : ∃ w, jsonParse (stringify order v) = some w ∧ v.Same w := by
  obtain ⟨w, hread, hsame⟩ := reads_stringify horder v (2 * (stringify order v).length + 1) [] (by omega) (by simp [Stops])
  refine ⟨w, ?_, hsame⟩
  rw [List.append_nil] at hread
  rw [jsonParse, hread]
  rfl

/-- Values with one text are the same. -/
theorem same_of_stringify (horder : Permutes order) {v w : JsonValue} (h : stringify order v = stringify order w) : v.Same w := by
  obtain ⟨u, hparse, hsame⟩ := jsonParse_stringify horder v
  obtain ⟨u', hparse', hsame'⟩ := jsonParse_stringify horder w
  rw [← h, hparse] at hparse'
  obtain rfl := Option.some.inj hparse'
  exact hsame.trans hsame'.symm

/-! ## The same value has the same text -/

/-- The key order does not depend on the order in which the fields are given. -/
def Canonical (order : KeyOrder) : Prop := ∀ l l', l.Perm l' → (l.map Prod.fst).Nodup → order l = order l'

theorem toStr_of_zero {n m : JsNum} (hn : n.digits = 0) (hm : m.digits = 0) : n.toStr = m.toStr := by
  simp [JsNum.toStr, hn, hm]

/-- The fields of the same objects have the same texts. -/
theorem ownFields_perm {α : Type} {fs gs : List (JsStr × α)} (h : ∀ k, fs.lookup k = gs.lookup k) :
    (ownFields fs).Perm (ownFields gs) := by
  have hf := ownFields_nodup fs
  have hg := ownFields_nodup gs
  refine (List.perm_ext_iff_of_nodup (List.Nodup.of_map _ hf) (List.Nodup.of_map _ hg)).2 fun f => ?_
  rw [mem_iff_lookup hf, mem_iff_lookup hg, lookup_ownFields, lookup_ownFields, h]

theorem stringify_of_same (hcanonical : Canonical order) {v w : JsonValue} (h : v.Same w) :
    stringify order v = stringify order w := by
  induction h with
  | null => rfl
  | bool b => rfl
  | str s => rfl
  | num h =>
    rcases h with rfl | ⟨hn, hm⟩
    · rfl
    · rw [stringify, stringify, toStr_of_zero hn hm]
  | @arr xs ys hlen _ ih =>
    have htexts : stringifyElems order xs = stringifyElems order ys := by
      rw [stringifyElems_eq, stringifyElems_eq]
      refine List.ext_getElem (by simp [hlen]) fun i hi hj => ?_
      rw [List.getElem_map, List.getElem_map]
      exact ih i _ _ (List.getElem?_eq_getElem _) (List.getElem?_eq_getElem _)
    rw [stringify, stringify, htexts]
  | @obj fs gs hkeys _ ih =>
    have hlookup : ∀ k, (stringifyFields order fs).lookup k = (stringifyFields order gs).lookup k := by
      intro k
      rw [lookup_stringifyFields, lookup_stringifyFields]
      cases hx : fs.lookup k with
      | none => rw [(hkeys k).1 hx]
      | some x =>
        cases hy : gs.lookup k with
        | none => exact absurd ((hkeys k).2 hy) (by simp [hx])
        | some y => rw [Option.map_some, Option.map_some, ih k x y hx hy]
    rw [stringify, stringify, hcanonical _ _ (ownFields_perm hlookup) (ownFields_nodup _)]

end

/-! ## Sorted keys -/

/-- `keys.sort()`: by code units. -/
def sortKeys : KeyOrder := fun l => l.mergeSort fun f g => f.1.map UInt16.toNat ≤ g.1.map UInt16.toNat

theorem permutes_sortKeys : Permutes sortKeys := fun l => List.mergeSort_perm l _

theorem map_toNat_injective : Function.Injective (List.map UInt16.toNat) :=
  List.map_injective_iff.2 fun _ _ => UInt16.toNat_inj.1

theorem canonical_sortKeys : Canonical sortKeys := by
  intro l l' hperm hnodup
  have hsorted : ∀ l : List (JsStr × List Char),
      (sortKeys l).Pairwise fun f g => f.1.map UInt16.toNat ≤ g.1.map UInt16.toNat := by
    intro l
    have h := @List.pairwise_mergeSort _ (fun f g : JsStr × List Char =>
        decide (f.1.map UInt16.toNat ≤ g.1.map UInt16.toNat))
      (fun a b c hab hbc => by simp only [decide_eq_true_eq] at *; exact hab.trans hbc)
      (fun a b => by simpa using le_total (a.1.map UInt16.toNat) (b.1.map UInt16.toNat)) l
    exact h.imp fun hab => of_decide_eq_true hab
  have hp : (sortKeys l).Perm (sortKeys l') :=
    (permutes_sortKeys l).trans (hperm.trans (permutes_sortKeys l').symm)
  refine List.Perm.eq_of_pairwise (fun f g hf hg hfg hgf => ?_) (hsorted l) (hsorted l') hp
  -- fields with one key are one field
  have hkey : f.1 = g.1 := map_toNat_injective (le_antisymm hfg hgf)
  have hf' : f ∈ l := (permutes_sortKeys l).mem_iff.1 hf
  have hg' : g ∈ l := hperm.mem_iff.2 ((permutes_sortKeys l').mem_iff.1 hg)
  exact List.inj_on_of_nodup_map hnodup hf' hg' hkey

end Xahc.Data
