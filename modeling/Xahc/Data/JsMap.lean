/-
A JavaScript `Map` with string keys, and the removal of every entry that fails a test.
-/
import Mathlib.Data.List.AList
import Mathlib.Logic.Function.Basic

namespace Xahc.Data

/-- A `Map` with string keys. -/
abbrev JsMap (V : Type) := AList fun _ : String => V

namespace JsMap

variable {V : Type}

/-- `map.size`. -/
def size (m : JsMap V) : Nat := m.entries.length

/-- The entries that pass the test. -/
def keep (p : V → Bool) (m : JsMap V) : JsMap V :=
  ⟨m.entries.filter fun e => p e.2, m.nodupKeys.sublist List.filter_sublist⟩

/-- A key is kept with its value when the value passes. -/
theorem lookup_keep (p : V → Bool) (m : JsMap V) (k : String) : (m.keep p).lookup k = (m.lookup k).filter p := by
  ext v
  rw [Option.filter_eq_some_iff]
  have hm : ∀ (m : JsMap V), m.lookup k = some v ↔ ⟨k, v⟩ ∈ m.entries :=
    fun m => Option.mem_def.symm.trans AList.mem_lookup_iff
  simp [hm, keep]

theorem lookup_of_keep {p : V → Bool} {m : JsMap V} {k : String} {v : V} (h : (m.keep p).lookup k = some v) :
    m.lookup k = some v ∧ p v = true := by
  rw [lookup_keep] at h
  exact Option.filter_eq_some_iff.1 h

theorem lookup_set (m : JsMap V) (k : String) (v : V) :
    (fun k' => (m.insert k v).lookup k') = Function.update (fun k' => m.lookup k') k (some v) := by
  funext k'
  by_cases h : k' = k
  · subst h
    rw [AList.lookup_insert, Function.update_self]
  · rw [AList.lookup_insert_ne h, Function.update_of_ne h]

theorem lookup_delete (m : JsMap V) (k : String) :
    (fun k' => (m.erase k).lookup k') = Function.update (fun k' => m.lookup k') k none := by
  funext k'
  by_cases h : k' = k
  · subst h
    rw [AList.lookup_erase, Function.update_self]
  · rw [AList.lookup_erase_ne h, Function.update_of_ne h]

/-! ## Its size -/

theorem size_eq_keys (m : JsMap V) : m.size = m.keys.length := by rw [size, AList.keys, List.keys, List.length_map]

theorem size_keep_le (p : V → Bool) (m : JsMap V) : (m.keep p).size ≤ m.size := List.length_filter_le _ _

theorem size_delete_le (m : JsMap V) (k : String) : size (m.erase k) ≤ m.size := by
  rw [size_eq_keys, size_eq_keys, AList.keys_erase]
  exact List.length_erase_le

theorem size_set_of_mem {m : JsMap V} {k : String} (hk : k ∈ m) (v : V) : size (m.insert k v) = m.size := by
  have hmem := AList.mem_keys.1 hk
  rw [size_eq_keys, size_eq_keys, AList.keys_insert, List.length_cons, List.length_erase_of_mem hmem]
  exact Nat.succ_pred_eq_of_pos (List.length_pos_of_mem hmem)

theorem size_set_le (m : JsMap V) (k : String) (v : V) : size (m.insert k v) ≤ m.size + 1 := by
  rw [size_eq_keys, size_eq_keys, AList.keys_insert, List.length_cons]
  exact Nat.succ_le_succ List.length_erase_le

end JsMap

end Xahc.Data
