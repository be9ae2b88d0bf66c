import Xios.Debs.Clauses

/-! What merging dependencies into a field makes of its value. -/

namespace Xios

namespace StampMinos

section

variable {u : PyText}

theorem isSpace_head_strip {s : PyString} {c : Nat} (begins : (u.strip s).head? = some c) :
    u.isSpace c = false := by
  have first : (s.dropWhile u.isSpace).head? = some c := by
    have inside : u.strip s <+: s.dropWhile u.isSpace := List.rdropWhile_prefix _ _
    obtain ⟨rest, whole⟩ := inside
    rw [← whole, List.head?_append, begins]
    rfl
  have stops := List.head?_dropWhile_not u.isSpace s
  rw [first] at stops
  simpa using stops

theorem alternativeName_eq_none {alt : PyString} (filled : u.strip alt ≠ []) :
    alternativeName u alt = none ↔ (u.strip alt).head? = some 40 := by
  unfold alternativeName
  rw [PyText.words_strip]
  cases stripped : u.strip alt with
  | nil => exact absurd stripped filled
  | cons c rest =>
    have solid : u.isSpace c = false := isSpace_head_strip (s := alt) (by rw [stripped]; rfl)
    by_cases opens : c = 40
    · subst opens
      simp [PyText.words]
    · rw [List.takeWhile_cons_of_pos (by simpa using opens)]
      obtain ⟨word, member, -⟩ := PyText.exists_mem_words
        (List.mem_cons_self (a := c) (l := rest.takeWhile (· ≠ 40))) solid
      constructor
      · intro none
        rw [List.head?_eq_none_iff] at none
        rw [none] at member
        cases member
      · intro begins
        exact absurd (Option.some.inj begins) opens

theorem alternativeName_blank {alt : PyString} (blank : u.strip alt = []) :
    alternativeName u alt = none := by
  unfold alternativeName
  rw [blank]
  rfl

theorem existing_of_readable {ln : PyString} (readable : Readable u (valueOf ln)) :
    existing u ln = some (mentioned u (valueOf ln)) := by
  unfold Readable at readable
  unfold existing mentioned alternatives
  generalize ((valueOf ln).splitOn 44).flatMap (fun part => part.splitOn 124) = alts at readable ⊢
  induction alts with
  | nil => rfl
  | cons alt alts ih =>
    rw [List.forall_mem_cons] at readable
    by_cases blank : u.strip alt = []
    · rw [List.filter_cons_of_neg (by simpa using blank), ih readable.2,
        List.filterMap_cons_none (alternativeName_blank blank)]
    · have named : alternativeName u alt ≠ none := by
        rw [Ne, alternativeName_eq_none blank]
        exact readable.1
      obtain ⟨name, found⟩ := Option.ne_none_iff_exists'.mp named
      rw [List.filter_cons_of_pos (by simpa using blank), List.mapM_cons, ih readable.2, found,
        List.filterMap_cons_some found]
      rfl

theorem existing_eq_none {ln : PyString} (unreadable : ¬Readable u (valueOf ln)) :
    existing u ln = none := by
  unfold Readable at unreadable
  unfold existing alternatives
  generalize ((valueOf ln).splitOn 44).flatMap (fun part => part.splitOn 124) = alts
    at unreadable ⊢
  induction alts with
  | nil => simp at unreadable
  | cons alt alts ih =>
    rw [List.forall_mem_cons, not_and_or, not_not] at unreadable
    rcases unreadable with opens | later
    · have filled : u.strip alt ≠ [] := by
        intro blank
        rw [blank] at opens
        cases opens
      rw [List.filter_cons_of_pos (by simpa using filled), List.mapM_cons,
        (alternativeName_eq_none filled).mpr opens]
      rfl
    · by_cases blank : u.strip alt = []
      · rw [List.filter_cons_of_neg (by simpa using blank), ih later]
      · rw [List.filter_cons_of_pos (by simpa using blank), List.mapM_cons, ih later]
        cases alternativeName u alt <;> rfl

def merged (u : PyText) (adds : List PyString) (value : PyString) : PyString :=
  u.rstrip value ++
    if missing u adds value = [] then [] else py ", " ++ commaList (missing u adds value)

variable {value : PyString}

theorem mergeDepends_of_readable {name : PyString} (colon : 58 ∉ name)
    (readable : Readable u value) (adds : List PyString) :
    mergeDepends u (name ++ 58 :: value) adds = some (name ++ 58 :: merged u adds value) := by
  have same : valueOf (name ++ 58 :: value) = value := by
    unfold valueOf
    rw [PyText.cut_append colon]
    rfl
  -- The colon is no white space, so the line is stripped in its value.
  have stripped : u.rstrip (name ++ 58 :: value) = name ++ 58 :: u.rstrip value := by
    apply PyText.rstrip_append_cons
    rw [u.space_ascii 58 (by decide)]
    rfl
  unfold mergeDepends
  rw [existing_of_readable (by rwa [same])]
  dsimp only [Option.bind_eq_bind, Option.bind_some]
  rw [stripped, same]
  unfold merged missing
  simp

theorem mergeDepends_eq_none {name : PyString} (colon : 58 ∉ name)
    (unreadable : ¬Readable u value) (adds : List PyString) :
    mergeDepends u (name ++ 58 :: value) adds = none := by
  have same : valueOf (name ++ 58 :: value) = value := by
    unfold valueOf
    rw [PyText.cut_append colon]
    rfl
  unfold mergeDepends
  rw [existing_eq_none (by rwa [same])]
  rfl

variable {adds : List PyString}

theorem clauses_merged (plain : ∀ w ∈ adds, Plain u w) (value : PyString) :
    clauses u (merged u adds value) =
      clauses u value ++ (missing u adds value).map fun w => [w] := by
  unfold merged
  split
  · rename_i none
    rw [none, List.append_nil, clauses_rstrip]
    simp
  · rename_i some
    have comma : py ", " ++ commaList (missing u adds value) =
        44 :: 32 :: commaList (missing u adds value) := rfl
    rw [comma, clauses_comma, clauses_rstrip, clauses_commaList some]
    exact fun w member => plain w (List.mem_of_mem_filter member)

theorem plain_dependsAdd {pkg : Option PyString} (found : lookup dependsAdd pkg = some adds) :
    ∀ w ∈ adds, Plain u w := by
  have table : ∀ entry ∈ dependsAdd, ∀ w ∈ entry.2,
      w ≠ [] ∧ ∀ c ∈ w, 33 ≤ c ∧ c < 127 ∧ c ≠ 44 ∧ c ≠ 124 ∧ c ≠ 40 := by
    decide +kernel
  obtain ⟨name, -, row⟩ := Option.bind_eq_some_iff.mp found
  have entry := List.lookup_eq_some_iff.mp row
  obtain ⟨before, after, whole, -⟩ := entry
  intro w member
  obtain ⟨nonempty, solid⟩ := table (name, adds) (by rw [whole]; simp) w member
  refine ⟨nonempty, fun c inside => ?_⟩
  obtain ⟨low, high, others⟩ := solid c inside
  refine ⟨?_, others⟩
  rw [u.space_ascii c (by omega)]
  simp
  omega

theorem dependsAdd_ne_nil {pkg : Option PyString} (found : lookup dependsAdd pkg = some adds) :
    adds ≠ [] := by
  have table : ∀ entry ∈ dependsAdd, entry.2 ≠ [] := by decide +kernel
  obtain ⟨name, -, row⟩ := Option.bind_eq_some_iff.mp found
  obtain ⟨before, after, whole, -⟩ := List.lookup_eq_some_iff.mp row
  exact table (name, adds) (by rw [whole]; simp)

theorem readable_merged (plain : ∀ w ∈ adds, Plain u w) (readable : Readable u value) :
    Readable u (merged u adds value) := by
  unfold merged
  split
  · rw [List.append_nil, (mentioned_rstrip value).2]
    exact readable
  · change Readable u (u.rstrip value ++ 44 :: 32 :: commaList (missing u adds value))
    rw [readable_comma, (mentioned_rstrip value).2]
    exact ⟨readable, readable_commaList fun w member => plain w (List.mem_of_mem_filter member)⟩

theorem missing_merged (plain : ∀ w ∈ adds, Plain u w) (value : PyString) :
    missing u adds (merged u adds value) = [] := by
  unfold missing
  rw [List.filter_eq_nil_iff]
  intro w member
  rw [decide_eq_true_iff, not_not]
  by_cases old : w ∈ mentioned u value
  · rw [← (mentioned_rstrip value).1] at old
    unfold merged
    split
    · rwa [List.append_nil]
    · change w ∈ mentioned u (u.rstrip value ++ 44 :: 32 :: commaList (missing u adds value))
      rw [mentioned_comma]
      exact List.mem_append_left _ old
  · -- What was missing is a clause of its own.
    apply mentioned_of_mem_clauses (plain w member)
    rw [clauses_merged plain]
    apply List.mem_append_right
    apply List.mem_map_of_mem
    unfold missing
    rw [List.mem_filter, decide_eq_true_iff]
    exact ⟨member, old⟩

theorem rstrip_merged (plain : ∀ w ∈ adds, Plain u w) (value : PyString) :
    u.rstrip (merged u adds value) = merged u adds value := by
  unfold merged
  split
  · unfold PyText.rstrip
    rw [List.append_nil, List.rdropWhile_idempotent]
  · rename_i some
    rw [← List.append_assoc, rstrip_commaList some fun w member =>
      plain w (List.mem_of_mem_filter member)]

theorem merged_merged (plain : ∀ w ∈ adds, Plain u w) (value : PyString) :
    merged u adds (merged u adds value) = merged u adds value := by
  have whole := rstrip_merged plain value
  have none := missing_merged plain value
  generalize merged u adds value = value' at whole none ⊢
  unfold merged
  rw [if_pos none, whole, List.append_nil]

theorem merged_commaList (plain : ∀ w ∈ adds, Plain u w) (nonempty : adds ≠ []) :
    merged u adds (32 :: commaList adds) = 32 :: commaList adds := by
  have none : missing u adds (32 :: commaList adds) = [] := by
    unfold missing
    rw [List.filter_eq_nil_iff]
    intro w member
    rw [decide_eq_true_iff, not_not]
    apply mentioned_of_mem_clauses (plain w member)
    rw [clauses_commaList nonempty plain]
    exact List.mem_map_of_mem member
  unfold merged
  rw [if_pos none, List.append_nil]
  exact rstrip_commaList nonempty plain [32]

end

end StampMinos

end Xios
