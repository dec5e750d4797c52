import Mathlib.Data.List.AList

/-!
# Keyed maps

`AList` is Mathlib's finite map with unique keys; here it stands for a hash map
from `κ` to `ν`.  Mathlib has `lookup`, `insert` and `erase`; this module adds
the operations that walk the whole map, each with the lemma that says what
`lookup` finds afterwards.
-/

universe u v

/-- A finite map from `κ` to `ν`. -/
abbrev KeyedMap (κ : Type u) (ν : Type v) := AList (fun _ : κ => ν)

namespace KeyedMap
variable {κ : Type u} {ν : Type v} [DecidableEq κ]

/-- The values of the map, in no order that matters. -/
def values (m : KeyedMap κ ν) : List ν := m.entries.map Sigma.snd

/-- Keep the entries whose key satisfies `p`. -/
def retain (p : κ → Bool) (m : KeyedMap κ ν) : KeyedMap κ ν :=
  ⟨m.entries.filter (fun e => p e.1), m.nodupKeys.sublist List.filter_sublist⟩

/-- Change the value at `k`, if there is one. -/
def modify (k : κ) (f : ν → ν) (m : KeyedMap κ ν) : KeyedMap κ ν :=
  match m.lookup k with
  | some v => m.insert k (f v)
  | none => m

theorem mem_values {m : KeyedMap κ ν} {v : ν} : v ∈ m.values ↔ ∃ k, m.lookup k = some v := by
  simp only [values, List.mem_map]
  constructor
  · rintro ⟨⟨k, w⟩, he, rfl⟩
    exact ⟨k, AList.mem_lookup_iff.mpr he⟩
  · rintro ⟨k, hk⟩
    exact ⟨⟨k, v⟩, AList.mem_lookup_iff.mp hk, rfl⟩

theorem lookup_insert (m : KeyedMap κ ν) (k j : κ) (v : ν) :
    (m.insert k v).lookup j = if j = k then some v else m.lookup j := by
  split
  · next h => subst h; exact AList.lookup_insert m
  · next h => exact AList.lookup_insert_ne h

theorem lookup_erase (m : KeyedMap κ ν) (k j : κ) :
    (m.erase k).lookup j = if j = k then none else m.lookup j := by
  split
  · next h => subst h; exact AList.lookup_erase _ m
  · next h => exact AList.lookup_erase_ne h

theorem lookup_retain (p : κ → Bool) (m : KeyedMap κ ν) (k : κ) :
    (m.retain p).lookup k = if p k then m.lookup k else none := by
  split
  · next h =>
    refine Option.ext fun v => ?_
    rw [← Option.mem_def, ← Option.mem_def, AList.mem_lookup_iff, AList.mem_lookup_iff]
    simp [retain, h]
  · next h =>
    rw [AList.lookup_eq_none, AList.mem_keys]
    simp [retain, AList.keys, List.keys, h]

/-- Nothing is dropped exactly when every key of the map is kept. -/
theorem retain_eq_self_iff (p : κ → Bool) (m : KeyedMap κ ν) :
    m.retain p = m ↔ ∀ k v, m.lookup k = some v → p k = true := by
  have hentries : m.retain p = m ↔ m.entries.filter (fun e => p e.1) = m.entries :=
    ⟨fun h => congrArg AList.entries h, fun h => AList.ext h⟩
  rw [hentries, List.filter_eq_self]
  constructor
  · intro h k v hk
    exact h ⟨k, v⟩ (AList.mem_lookup_iff.mp hk)
  · rintro h ⟨k, v⟩ he
    exact h k v (AList.mem_lookup_iff.mpr he)

theorem lookup_modify (m : KeyedMap κ ν) (k j : κ) (f : ν → ν) :
    (m.modify k f).lookup j = if j = k then (m.lookup j).map f else m.lookup j := by
  unfold modify
  split
  · next v hk =>
    rw [lookup_insert]
    split
    · next h => subst h; simp [hk]
    · rfl
  · next hk =>
    split
    · next h => subst h; simp [hk]
    · rfl

theorem erase_singleton (k : κ) (v : ν) : (AList.singleton k v : KeyedMap κ ν).erase k = ∅ :=
  AList.ext (List.kerase_cons_eq (s := (⟨k, v⟩ : Sigma fun _ : κ => ν)) (l := []) rfl)

/-- The entries of one key. -/
theorem filter_entries (m : KeyedMap κ ν) (k : κ) :
    m.entries.filter (fun e => decide (e.1 = k)) = (m.lookup k).toList.map (Sigma.mk k) := by
  obtain ⟨entries, hnodup⟩ := m
  show entries.filter _ = (entries.dlookup k).toList.map _
  induction entries with
  | nil => rfl
  | cons e entries ih =>
    obtain ⟨j, v⟩ := e
    obtain ⟨hnew, hnodup⟩ := List.nodupKeys_cons.mp hnodup
    by_cases hj : j = k
    · subst hj
      have hnone : entries.filter (fun e => decide (e.1 = j)) = [] := by
        rw [ih hnodup, List.dlookup_eq_none.mpr hnew]
        rfl
      rw [List.filter_cons, hnone, List.dlookup_cons_eq]
      simp
    · rw [List.filter_cons, ih hnodup, List.dlookup_cons_ne _ _ (Ne.symm hj)]
      simp [hj]

theorem size_erase_lt {m : KeyedMap κ ν} {k : κ} {v : ν} (h : m.lookup k = some v) :
    (m.erase k).entries.length < m.entries.length := by
  have hmem : k ∈ m.keys := AList.lookup_isSome.mp (by simp [h])
  have hlen : (m.erase k).keys.length = m.keys.length - 1 := by
    rw [AList.keys_erase, List.length_erase_of_mem hmem]
  have hpos : 0 < m.keys.length := List.length_pos_of_mem hmem
  simp only [AList.keys, List.keys, List.length_map] at hlen hpos
  omega

end KeyedMap
