import Mathlib.Data.List.Nodup

/-! Dictionaries that keep their entries in the order of the first insertion of each key. -/

variable {α κ : Type*}

/-- Entries with different keys, in the order of their insertion. -/
structure Dict (key : α → κ) where
  entries : List α
  distinct : (entries.map key).Nodup

namespace Dict

def empty (key : α → κ) : Dict key :=
  ⟨[], List.nodup_nil⟩

variable [DecidableEq κ] {key : α → κ}

/-- Replace the entry with the key of another one, or add that at the end. -/
def put (key : α → κ) (a : α) : List α → List α
  | [] => [a]
  | b :: rest => if key b = key a then a :: rest else b :: put key a rest

variable {a : α} {k : κ}

theorem mem_keys_put {entries : List α} :
    k ∈ (put key a entries).map key ↔ k = key a ∨ k ∈ entries.map key := by
  induction entries with
  | nil => simp [put]
  | cons b rest ih =>
    unfold put
    split
    · rename_i same
      rw [List.map_cons, List.map_cons, List.mem_cons, List.mem_cons, same]
      exact or_self_left.symm
    · rw [List.map_cons, List.map_cons, List.mem_cons, List.mem_cons, ih]
      exact or_left_comm

theorem nodup_put {entries : List α} (distinct : (entries.map key).Nodup) :
    ((put key a entries).map key).Nodup := by
  induction entries with
  | nil => simp [put]
  | cons b rest ih =>
    rw [List.map_cons, List.nodup_cons] at distinct
    unfold put
    split
    · rename_i same
      rw [List.map_cons, List.nodup_cons, ← same]
      exact distinct
    · rename_i other
      rw [List.map_cons, List.nodup_cons, mem_keys_put, not_or]
      exact ⟨⟨other, distinct.1⟩, ih distinct.2⟩

def set (d : Dict key) (a : α) : Dict key :=
  ⟨put key a d.entries, nodup_put d.distinct⟩

def get (d : Dict key) (k : κ) : Option α :=
  d.entries.find? fun a => key a = k

def ofList (key : α → κ) (entries : List α) : Dict key :=
  entries.foldl set (empty key)

variable {d : Dict key}

theorem get_eq_some : d.get k = some a ↔ a ∈ d.entries ∧ key a = k := by
  unfold get
  constructor
  · intro found
    exact ⟨List.mem_of_find?_eq_some found, by simpa using List.find?_some found⟩
  · rintro ⟨member, rfl⟩
    -- Another entry with the key would repeat it.
    obtain ⟨entries, distinct⟩ := d
    induction entries with
    | nil => cases member
    | cons b rest ih =>
      rw [List.map_cons, List.nodup_cons] at distinct
      obtain rfl | later := List.mem_cons.mp member
      · simp
      · have other : key b ≠ key a := by
          intro same
          exact distinct.1 (same ▸ List.mem_map_of_mem later)
        rw [List.find?_cons_of_neg (by simpa using other)]
        exact ih distinct.2 later

theorem get_eq_none : d.get k = none ↔ k ∉ d.entries.map key := by
  rw [← Option.not_isSome_iff_eq_none, Option.isSome_iff_exists, List.mem_map]
  simp only [get_eq_some]

theorem get_set (d : Dict key) (a : α) (k : κ) :
    (d.set a).get k = if key a = k then some a else d.get k := by
  obtain ⟨entries, distinct⟩ := d
  unfold set get
  dsimp only
  clear distinct
  induction entries with
  | nil => simp [put]
  | cons b rest ih =>
    unfold put
    by_cases same : key b = key a
    · -- The entry that is replaced has the key of the new one.
      rw [if_pos same]
      by_cases found : key a = k
      · simp [found]
      · simp [found, same]
    · rw [if_neg same, List.find?_cons, List.find?_cons, ih]
      by_cases found : key b = k
      · have other : key a ≠ k := fun again => same (found.trans again.symm)
        simp [found, other]
      · simp [found]

theorem keys_set (member : key a ∈ d.entries.map key) :
    (d.set a).entries.map key = d.entries.map key := by
  obtain ⟨entries, distinct⟩ := d
  unfold set
  dsimp only at member ⊢
  clear distinct
  induction entries with
  | nil => cases member
  | cons b rest ih =>
    unfold put
    split
    · rename_i same
      rw [List.map_cons, List.map_cons, same]
    · rename_i other
      rw [List.map_cons, List.mem_cons] at member
      rcases member with same | later
      · exact absurd same.symm other
      · rw [List.map_cons, List.map_cons, ih later]

theorem keys_set_new (absent : key a ∉ d.entries.map key) :
    (d.set a).entries.map key = d.entries.map key ++ [key a] := by
  obtain ⟨entries, distinct⟩ := d
  unfold set
  dsimp only at absent ⊢
  clear distinct
  induction entries with
  | nil => rfl
  | cons b rest ih =>
    rw [List.map_cons, List.mem_cons, not_or] at absent
    unfold put
    rw [if_neg (Ne.symm absent.1), List.map_cons, List.map_cons, ih absent.2, List.cons_append]

end Dict
