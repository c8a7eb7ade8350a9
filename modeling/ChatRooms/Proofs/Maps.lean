import Std.Data.ExtTreeMap

namespace ChatRooms.Maps

open Std

variable {α β : Type} [Ord α] [TransOrd α] {map : ExtTreeMap α β} {key other : α} {value : β}

theorem mem_iff_exists : key ∈ map ↔ ∃ value, map[key]? = some value := by
  rw [ExtTreeMap.mem_iff_isSome_getElem?, Option.isSome_iff_exists]

theorem mem_of_getElem? (h : map[key]? = some value) : key ∈ map :=
  mem_iff_exists.2 ⟨value, h⟩

theorem not_mem_of_getElem? (h : map[key]? = none) : key ∉ map := by
  rw [mem_iff_exists, h]
  exact fun ⟨value, hvalue⟩ => Option.some_ne_none value hvalue.symm

variable [LawfulEqOrd α]

theorem getElem?_insert_of_ne (hne : key ≠ other) :
    (map.insert key value)[other]? = map[other]? := by
  rw [ExtTreeMap.getElem?_insert, if_neg (mt Std.compare_eq_iff_eq.1 hne)]

theorem getElem?_erase_of_ne (hne : key ≠ other) :
    (map.erase key)[other]? = map[other]? := by
  rw [ExtTreeMap.getElem?_erase, if_neg (mt Std.compare_eq_iff_eq.1 hne)]

theorem insert_insert (map : ExtTreeMap α β) (key : α) (old new : β) :
    (map.insert key old).insert key new = map.insert key new := by
  apply ExtTreeMap.ext_getElem?
  intro other
  simp only [ExtTreeMap.getElem?_insert]
  split <;> rfl

theorem erase_insert (map : ExtTreeMap α β) (key : α) (value : β) :
    (map.insert key value).erase key = map.erase key := by
  apply ExtTreeMap.ext_getElem?
  intro other
  simp only [ExtTreeMap.getElem?_erase, ExtTreeMap.getElem?_insert]
  split <;> rfl

theorem erase_erase (map : ExtTreeMap α β) (key : α) : (map.erase key).erase key = map.erase key := by
  apply ExtTreeMap.ext_getElem?
  intro other
  simp only [ExtTreeMap.getElem?_erase]
  split <;> rfl

theorem insert_of_getElem? (h : map[key]? = some value) : map.insert key value = map := by
  apply ExtTreeMap.ext_getElem?
  intro other
  rw [ExtTreeMap.getElem?_insert]
  split
  next heq => rw [← Std.compare_eq_iff_eq.1 heq, h]
  next => rfl

theorem erase_of_not_mem (h : key ∉ map) : map.erase key = map := by
  apply ExtTreeMap.ext_getElem?
  intro other
  rw [ExtTreeMap.getElem?_erase]
  split
  next heq => rw [← Std.compare_eq_iff_eq.1 heq, ExtTreeMap.getElem?_eq_none h]
  next => rfl

/-- How many values there are of some kind: those elsewhere, and the one at a key. -/
theorem size_filter_eq (map : ExtTreeMap α β) (key : α) (p : β → Bool) :
    (map.filter fun _ => p).size =
      ((map.filter fun _ => p).erase key).size + if map[key]?.any p then 1 else 0 := by
  have hmem : key ∈ map.filter (fun _ => p) ↔ map[key]?.any p = true := by
    rw [mem_iff_exists, ExtTreeMap.getElem?_filter']
    cases map[key]? <;> simp [Option.filter]
  by_cases hkey : key ∈ map.filter fun _ => p
  · have hpositive : (map.filter fun _ => p).size ≠ 0 := by
      intro hzero
      have hempty : (map.filter fun _ => p).isEmpty = true := by
        rw [ExtTreeMap.isEmpty_eq_size_beq_zero, hzero]
        rfl
      rw [ExtTreeMap.isEmpty_iff.1 hempty] at hkey
      exact ExtTreeMap.not_mem_empty hkey
    rw [ExtTreeMap.size_erase, if_pos (ExtTreeMap.contains_iff_mem.2 hkey), if_pos (hmem.1 hkey)]
    omega
  · rw [erase_of_not_mem hkey, if_neg (mt hmem.2 hkey), Nat.add_zero]

/-- Two maps that differ at one key only have as many of them, but for the values there. -/
theorem size_filter_add {map' : ExtTreeMap α β} (p : β → Bool)
    (h : ∀ other, other ≠ key → map'[other]? = map[other]?) :
    (map'.filter fun _ => p).size + (if map[key]?.any p then 1 else 0) =
      (map.filter fun _ => p).size + if map'[key]?.any p then 1 else 0 := by
  have hrest : (map'.filter fun _ => p).erase key = (map.filter fun _ => p).erase key := by
    apply ExtTreeMap.ext_getElem?
    intro other
    rw [ExtTreeMap.getElem?_erase, ExtTreeMap.getElem?_erase]
    split
    next => rfl
    next hne =>
      rw [ExtTreeMap.getElem?_filter', ExtTreeMap.getElem?_filter',
        h other fun heq => hne (Std.compare_eq_iff_eq.2 heq.symm)]
  rw [size_filter_eq map key, size_filter_eq map' key, hrest]
  omega

/-- A map is larger than one with none but its keys by the keys that the other does not have. -/
theorem size_add_length_filter {map map' : ExtTreeMap α β} (hsubset : ∀ key ∈ map', key ∈ map) :
    map'.size + (map.keys.filter (· ∉ map')).length = map.size := by
  have hkeys : (map.keys.filter (· ∈ map')).Perm map'.keys := by
    rw [List.perm_ext_iff_of_nodup (ExtTreeMap.nodup_keys.filter _) ExtTreeMap.nodup_keys]
    intro key
    rw [List.mem_filter, ExtTreeMap.mem_keys, ExtTreeMap.mem_keys, decide_eq_true_iff]
    exact and_iff_right_of_imp (hsubset key)
  have hsplit : map.keys.length = _ := List.length_eq_countP_add_countP (· ∈ map')
  rw [List.countP_eq_length_filter, List.countP_eq_length_filter, hkeys.length_eq,
    ExtTreeMap.length_keys, ExtTreeMap.length_keys] at hsplit
  simpa using hsplit.symm

end ChatRooms.Maps
