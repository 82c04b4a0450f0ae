/-
Computations that may panic: sums and differences of machine words, elements and parts of slices, and new
vectors. Each has its value where it has one; a program whose every step has one does not panic.
-/
import Xahc.Data.Bytes

namespace Xahc.Data

/-- Why a computation panics. -/
inductive Panic
  | capacityOverflow
  | sliceIndex
  | charBoundary
  | arithmeticOverflow
  | unwrap
  deriving DecidableEq, Repr

/-- What a computation comes to: its value, or a panic. -/
abbrev Checked (α : Type) := Except Panic α

namespace Checked

variable {α β : Type}

/-! ## Operations -/

/-- A sum, as a word of `w` bits. -/
def add (w a b : Nat) : Checked Nat := if a + b < 2 ^ w then .ok (a + b) else .error .arithmeticOverflow

/-- Subtraction that must not go below zero. -/
def sub (a b : Nat) : Checked Nat := if b ≤ a then .ok (a - b) else .error .arithmeticOverflow

/-- Multiplication in `w` bits. -/
def mul (w a b : Nat) : Checked Nat := if a * b < 2 ^ w then .ok (a * b) else .error .arithmeticOverflow

/-- The element `xs[i]`. -/
def index (xs : List α) (i : Nat) : Checked α :=
  match xs[i]? with
  | some x => .ok x
  | none => .error .sliceIndex

/-- The part `xs[start..stop]`. -/
def slice (xs : List α) (start stop : Nat) : Checked (List α) :=
  if start ≤ stop ∧ stop ≤ xs.length then .ok ((xs.drop start).take (stop - start)) else .error .sliceIndex

/-- The part `xs[start..]`. -/
def sliceFrom (xs : List α) (start : Nat) : Checked (List α) := slice xs start xs.length

/-- `b.try_into().unwrap()`, for an array of `n` bytes. -/
def array (n : Nat) (b : Bytes) : Checked Bytes := if b.length = n then .ok b else .error .unwrap

/-- `vec![0u8; n]`: a vector holds at most `isize::MAX` bytes. -/
def vec (n : Nat) : Checked Bytes := if n < 2 ^ 63 then .ok (List.replicate n 0) else .error .capacityOverflow

theorem ok_bind (a : α) (f : α → Checked β) : ((.ok a : Checked α) >>= f) = f a := rfl

theorem add_ok {w a b : Nat} (h : a + b < 2 ^ w) : add w a b = .ok (a + b) := if_pos h

theorem sub_ok {a b : Nat} (h : b ≤ a) : sub a b = .ok (a - b) := if_pos h

theorem mul_ok {w a b : Nat} (h : a * b < 2 ^ w) : mul w a b = .ok (a * b) := if_pos h

theorem index_ok {xs : List α} {i : Nat} {x : α} (h : xs[i]? = some x) : index xs i = .ok x := by
  rw [index, h]

theorem index_getD {xs : List α} {i : Nat} (h : i < xs.length) (fallback : α) : index xs i = .ok (xs.getD i fallback) := by
  rw [index_ok (List.getElem?_eq_getElem h), List.getD_eq_getElem?_getD, List.getElem?_eq_getElem h]
  rfl

theorem slice_ok {xs : List α} {start stop : Nat} (h : start ≤ stop) (hstop : stop ≤ xs.length) :
    slice xs start stop = .ok ((xs.drop start).take (stop - start)) :=
  if_pos ⟨h, hstop⟩

theorem sliceFrom_ok {xs : List α} {start : Nat} (h : start ≤ xs.length) : sliceFrom xs start = .ok (xs.drop start) := by
  rw [sliceFrom, slice_ok h le_rfl, ← List.length_drop, List.take_length]

theorem array_ok {n : Nat} {b : Bytes} (h : b.length = n) : array n b = .ok b := if_pos h

theorem vec_ok {n : Nat} (h : n < 2 ^ 63) : vec n = .ok (List.replicate n 0) := if_pos h

theorem vec_panics {n : Nat} (h : 2 ^ 63 ≤ n) : vec n = .error .capacityOverflow := if_neg (Nat.not_lt.2 h)

/-- A choice both of whose sides are computed without a panic. -/
theorem ite_ok {c : Prop} [Decidable c] {x y : Checked α} {a b : α} (hx : c → x = .ok a) (hy : ¬c → y = .ok b) :
    (if c then x else y) = .ok (if c then a else b) := by
  by_cases h : c
  · rw [if_pos h, if_pos h]
    exact hx h
  · rw [if_neg h, if_neg h]
    exact hy h

/-- A search whose every test is computed without a panic. -/
theorem anyM_ok {xs : List α} {f : α → Checked Bool} {g : α → Bool} (h : ∀ x ∈ xs, f x = .ok (g x)) :
    xs.anyM f = .ok (xs.any g) := by
  induction xs with
  | nil => rfl
  | cons x xs ih =>
    rw [List.anyM, h x List.mem_cons_self, ok_bind, List.any_cons]
    cases g x with
    | true => rfl
    | false => exact ih fun y hy => h y (List.mem_cons_of_mem x hy)

/-! ## Programs that do not panic -/

/-- The computation does not panic, and its value is as told. -/
def Gives (x : Checked α) (p : α → Prop) : Prop := ∃ a, x = .ok a ∧ p a

variable {x : Checked α} {f : α → Checked β} {p : α → Prop} {q : β → Prop}

theorem gives_ok {a : α} (h : p a) : Gives (.ok a : Checked α) p := ⟨a, rfl, h⟩

theorem Gives.mono {p' : α → Prop} (h : Gives x p) (himp : ∀ a, p a → p' a) : Gives x p' := by
  obtain ⟨a, rfl, ha⟩ := h
  exact gives_ok (himp a ha)

theorem Gives.bind (h : Gives x p) (hf : ∀ a, p a → Gives (f a) q) : Gives (x >>= f) q := by
  obtain ⟨a, rfl, ha⟩ := h
  exact hf a ha

/-! ## Programs that may fail by themselves -/

section
variable {x : OptionT Checked α} {o : Option α} {f : α → OptionT Checked β} {g : α → Option β}

/-- The program does not panic, and comes to what a program without panics comes to; its value is as told. -/
def Follows (x : OptionT Checked α) (o : Option α) (p : α → Prop) : Prop := x.run = .ok o ∧ ∀ a, o = some a → p a

theorem follows_pure {a : α} (h : p a) : Follows (pure a) (some a) p := ⟨rfl, fun _ ha => Option.some.inj ha ▸ h⟩

theorem follows_fail : Follows (failure : OptionT Checked α) none p := ⟨rfl, fun _ h => nomatch h⟩

/-- A result that is computed without a panic. -/
theorem follows_lift (o : Option α) : Follows (OptionT.mk (pure o)) o fun a => o = some a := ⟨rfl, fun _ h => h⟩

theorem Follows.bind {o : Option α} (h : Follows x o p) (hf : ∀ a, o = some a → p a → Follows (f a) (g a) q) :
    Follows (x >>= f) (o >>= g) q := by
  obtain ⟨hx, hp⟩ := h
  have hrun : (x >>= f).run = x.run >>= fun o => o.elim (pure none) fun a => (f a).run := by
    refine congrArg (x.run >>= ·) (funext fun o => ?_)
    cases o <;> rfl
  cases o with
  | none => exact ⟨by rw [hrun, hx]; rfl, fun _ h => nomatch h⟩
  | some a =>
    obtain ⟨hfa, hq⟩ := hf a rfl (hp a rfl)
    exact ⟨by rw [hrun, hx]; exact hfa, hq⟩

theorem Follows.mono {p' : α → Prop} (h : Follows x o p) (himp : ∀ a, p a → p' a) : Follows x o p' :=
  ⟨h.1, fun a ha => himp a (h.2 a ha)⟩

/-- A step of the program that the other one does not have. -/
theorem follows_step {c : Checked α} {a : α} {o : Option β} (hc : c = .ok a) (h : Follows (f a) o q) :
    Follows (liftM c >>= f) o q := by
  subst hc
  exact h

theorem follows_last {c : Checked α} {a : α} (hc : c = .ok a) (h : p a) : Follows (liftM c) (some a) p := by
  subst hc
  exact follows_pure h

theorem follows_guard {c : Prop} [Decidable c] {y : Unit → OptionT Checked β} {z : Unit → Option β}
    (h : c → Follows (y ()) (z ()) q) : Follows (guard c >>= y) (guard c >>= z) q := by
  by_cases hc : c
  · rw [guard, guard, if_pos hc, if_pos hc]
    exact h hc
  · rw [guard, guard, if_neg hc, if_neg hc]
    exact follows_fail

theorem follows_ite {c : Prop} [Decidable c] {x y : OptionT Checked α} {o o' : Option α} (hx : c → Follows x o p)
    (hy : ¬c → Follows y o' p) : Follows (if c then x else y) (if c then o else o') p := by
  by_cases h : c
  · rw [if_pos h, if_pos h]
    exact hx h
  · rw [if_neg h, if_neg h]
    exact hy h

end

section
variable {ε : Type} {x : ExceptT ε Checked α} {o : Except ε α} {f : α → ExceptT ε Checked β} {g : α → Except ε β}

/-- The same for a program whose failures say what went wrong. -/
def Echoes (x : ExceptT ε Checked α) (o : Except ε α) (p : α → Prop) : Prop := x.run = .ok o ∧ ∀ a, o = .ok a → p a

theorem echoes_pure {a : α} (h : p a) : Echoes (pure a : ExceptT ε Checked α) (.ok a) p :=
  ⟨rfl, fun _ ha => Except.ok.inj ha ▸ h⟩

theorem echoes_throw (e : ε) : Echoes (throw e : ExceptT ε Checked α) (.error e) p := ⟨rfl, fun _ h => nomatch h⟩

theorem Echoes.bind {o : Except ε α} (h : Echoes x o p) (hf : ∀ a, o = .ok a → p a → Echoes (f a) (g a) q) :
    Echoes (x >>= f) (o >>= g) q := by
  obtain ⟨hx, hp⟩ := h
  have hrun : (x >>= f).run = x.run >>= fun o => ExceptT.bindCont f o := rfl
  cases o with
  | error e => exact ⟨by rw [hrun, hx]; rfl, fun _ h => nomatch h⟩
  | ok a =>
    obtain ⟨hfa, hq⟩ := hf a rfl (hp a rfl)
    exact ⟨by rw [hrun, hx]; exact hfa, hq⟩

theorem Echoes.mono {p' : α → Prop} (h : Echoes x o p) (himp : ∀ a, p a → p' a) : Echoes x o p' :=
  ⟨h.1, fun a ha => himp a (h.2 a ha)⟩

theorem echoes_step {c : Checked α} {a : α} {o : Except ε β} (hc : c = .ok a) (h : Echoes (f a) o q) :
    Echoes (liftM c >>= f) o q := by
  subst hc
  exact h

theorem echoes_last {c : Checked α} {a : α} (hc : c = .ok a) (h : p a) :
    Echoes (liftM c : ExceptT ε Checked α) (.ok a) p := by
  subst hc
  exact echoes_pure h

theorem echoes_ite {c : Prop} [Decidable c] {x y : ExceptT ε Checked α} {o o' : Except ε α} (hx : c → Echoes x o p)
    (hy : ¬c → Echoes y o' p) : Echoes (if c then x else y) (if c then o else o') p := by
  by_cases h : c
  · rw [if_pos h, if_pos h]
    exact hx h
  · rw [if_neg h, if_neg h]
    exact hy h

end

end Checked

end Xahc.Data
