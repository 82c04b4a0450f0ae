/-
Scans over a text: what stands before the first occurrence of a pattern, and the longest run of a class of
characters a text ends with.
-/
import Mathlib.Data.List.DropRight

namespace Xahc.Data

variable {α : Type}

/-! ## First occurrences -/

section
variable [BEq α] [LawfulBEq α]

/-- What stands before the first occurrence of a pattern. -/
def beforeFirst (pat : List α) : List α → Option (List α)
  | [] => if pat.isPrefixOf [] then some [] else none
  | c :: s => if pat.isPrefixOf (c :: s) then some [] else (beforeFirst pat s).map (c :: ·)

/-- The pattern stands after `pre`, and nowhere earlier. -/
def OccursFirst (pat s pre : List α) : Prop :=
  pat <+: s.drop pre.length ∧ pre <+: s ∧ ∀ i < pre.length, ¬pat <+: s.drop i

theorem beforeFirst_iff {pat s pre : List α} : beforeFirst pat s = some pre ↔ OccursFirst pat s pre := by
  induction s generalizing pre with
  | nil =>
    unfold beforeFirst OccursFirst
    by_cases h : pat.isPrefixOf ([] : List α) = true
    · rw [if_pos h, Option.some.injEq]
      constructor
      · rintro rfl
        exact ⟨List.isPrefixOf_iff_prefix.1 h, List.nil_prefix, nofun⟩
      · rintro ⟨-, hpre, -⟩
        exact (List.prefix_nil.1 hpre).symm
    · rw [if_neg h]
      refine iff_of_false nofun ?_
      rintro ⟨hpat, -, -⟩
      rw [List.drop_nil] at hpat
      exact h (List.isPrefixOf_iff_prefix.2 hpat)
  | cons c s ih =>
    unfold beforeFirst
    -- the pattern starts here, or its first occurrence is one in the rest
    by_cases h : pat.isPrefixOf (c :: s) = true
    · rw [if_pos h, Option.some.injEq]
      have hpat := List.isPrefixOf_iff_prefix.1 h
      constructor
      · rintro rfl
        exact ⟨hpat, List.nil_prefix, nofun⟩
      · rintro ⟨-, -, hfirst⟩
        cases pre with
        | nil => rfl
        | cons x pre => exact absurd hpat (hfirst 0 (Nat.succ_pos _))
    · rw [if_neg h, Option.map_eq_some_iff]
      have hpat : ¬pat <+: c :: s := fun hp => h (List.isPrefixOf_iff_prefix.2 hp)
      constructor
      · rintro ⟨pre, hpre, rfl⟩
        obtain ⟨hocc, hprefix, hfirst⟩ := ih.1 hpre
        refine ⟨hocc, (List.prefix_cons_inj c).2 hprefix, fun i hi => ?_⟩
        cases i with
        | zero => exact hpat
        | succ i => exact hfirst i (Nat.lt_of_succ_lt_succ hi)
      · rintro ⟨hocc, hprefix, hfirst⟩
        cases pre with
        | nil => exact absurd hocc hpat
        | cons x pre =>
          obtain ⟨rfl, hpre⟩ := List.cons_prefix_cons.1 hprefix
          exact ⟨pre, ih.2 ⟨hocc, hpre, fun i hi => hfirst (i + 1) (Nat.succ_lt_succ hi)⟩, rfl⟩

end

/-! ## Trailing runs -/

/-- A text is split where its longest trailing run of a class begins, and nowhere else. -/
theorem trailing_run_iff {p : α → Bool} {s a b : List α} :
    s.rdropWhile p = a ∧ s.rtakeWhile p = b ↔
      s = a ++ b ∧ (∀ c ∈ b, p c = true) ∧ ∀ c, a.getLast? = some c → p c = false := by
  constructor
  · rintro ⟨rfl, rfl⟩
    refine ⟨List.rdropWhile_append_rtakeWhile.symm, fun c hc => List.mem_rtakeWhile_imp hc, fun c hc => ?_⟩
    obtain ⟨hne, hlast⟩ := List.mem_getLast?_eq_getLast hc
    rw [hlast, ← Bool.not_eq_true]
    exact List.rdropWhile_last_not p s hne
  · rintro ⟨rfl, hb, ha⟩
    induction b using List.reverseRecOn with
    | nil =>
      rw [List.append_nil, List.rdropWhile_eq_self_iff, List.rtakeWhile_eq_nil_iff]
      have hlast (hne : a ≠ []) : ¬p (a.getLast hne) = true := by
        rw [ha _ (List.getLast?_eq_some_getLast hne)]
        exact Bool.false_ne_true
      exact ⟨hlast, hlast⟩
    | append_singleton b x ih =>
      have hx := hb x (List.mem_append_right _ (List.mem_singleton_self x))
      obtain ⟨hdrop, htake⟩ := ih fun c hc => hb c (List.mem_append_left _ hc)
      rw [← List.append_assoc, List.rdropWhile_concat_pos _ _ _ hx, List.rtakeWhile_concat_pos _ _ _ hx, hdrop, htake]
      exact ⟨rfl, rfl⟩

end Xahc.Data
