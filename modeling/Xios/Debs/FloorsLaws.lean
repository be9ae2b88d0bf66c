import Mathlib.Logic.Relation
import Xios.Debs.Fields
import Xios.Debs.Floors
import Xios.Lib.Sweep

/-! The floor of a package is the highest of those that forty sweeps bring to it. -/

namespace Xios

namespace StampMinos

section

variable {d : Deps} {floor : Floors} {p : PyString}

def edges (d : Deps) (order : List PyString) (p : PyString) : List PyString :=
  (depsAt d p).filter (· ∈ order)

theorem floorOf_set (floor : Floors) (p : PyString) (c : Nat) :
    floorOf (floor.set (p, c)) = Function.update (floorOf floor) p c := by
  funext t
  unfold floorOf
  rw [Dict.get_set, Function.update_apply]
  by_cases same : t = p
  · simp [same]
  · simp [same, Ne.symm same]

theorem foldl_eq_highest (f : PyString → Nat) (order nodes : List PyString) (value : Nat) :
    nodes.foldl (fun c t => if t ∈ order ∧ f t > c then f t else c) value =
      Sweep.highest f (nodes.filter (· ∈ order)) value := by
  unfold Sweep.highest
  induction nodes generalizing value with
  | nil => rfl
  | cons t nodes ih =>
    by_cases member : t ∈ order
    · have raised : (if t ∈ order ∧ f t > value then f t else value) = max value (f t) := by
        simp only [member, true_and]
        split <;> omega
      rw [List.filter_cons_of_pos (by simpa using member), List.foldl_cons, List.foldl_cons,
        raised, ih]
    · rw [List.filter_cons_of_neg (by simpa using member), List.foldl_cons,
        if_neg fun both => member both.1, ih]

theorem raiseFloor_spec (changed : Bool) (member : p ∈ keys floor) :
    keys (raiseFloor d (floor, changed) p).1 = keys floor ∧
      floorOf (raiseFloor d (floor, changed) p).1 =
        Sweep.raise (edges d (keys floor)) (floorOf floor) p ∧
      ((raiseFloor d (floor, changed) p).2 = false →
        (raiseFloor d (floor, changed) p).1 = floor ∧ changed = false) := by
  have taken : raiseFloor d (floor, changed) p =
      let c := Sweep.highest (floorOf floor) (edges d (keys floor) p) (floorOf floor p)
      if c ≠ floorOf floor p then (floor.set (p, c), true) else (floor, changed) := by
    unfold raiseFloor
    rw [foldl_eq_highest]
    rfl
  rw [taken]
  unfold Sweep.raise
  dsimp only
  split
  · refine ⟨Dict.keys_set member, floorOf_set _ _ _, ?_⟩
    intro unchanged
    cases unchanged
  · rename_i same
    rw [not_not] at same
    refine ⟨rfl, ?_, fun unchanged => ⟨rfl, unchanged⟩⟩
    rw [same, Function.update_eq_self]

theorem foldl_raiseFloor (ps : List PyString) (changed : Bool) (inside : ∀ p ∈ ps, p ∈ keys floor) :
    keys (ps.foldl (raiseFloor d) (floor, changed)).1 = keys floor ∧
      floorOf (ps.foldl (raiseFloor d) (floor, changed)).1 =
        Sweep.sweep (edges d (keys floor)) ps (floorOf floor) ∧
      ((ps.foldl (raiseFloor d) (floor, changed)).2 = false →
        (ps.foldl (raiseFloor d) (floor, changed)).1 = floor ∧ changed = false) := by
  induction ps generalizing floor changed with
  | nil => exact ⟨rfl, rfl, fun unchanged => ⟨rfl, unchanged⟩⟩
  | cons p ps ih =>
    rw [List.forall_mem_cons] at inside
    obtain ⟨sameKeys, raised, still⟩ := raiseFloor_spec (d := d) changed inside.1
    rw [List.foldl_cons]
    -- The turn leaves floors of the same packages.
    generalize raiseFloor d (floor, changed) p = st at sameKeys raised still ⊢
    obtain ⟨next, changed'⟩ := st
    obtain ⟨sameKeys', swept, still'⟩ := @ih next changed' (by
      rw [sameKeys]
      exact inside.2)
    rw [sameKeys, raised] at swept
    refine ⟨sameKeys'.trans sameKeys, swept, ?_⟩
    intro unchanged
    obtain ⟨same, unchanged'⟩ := still' unchanged
    obtain ⟨same', before⟩ := still unchanged'
    exact ⟨same.trans same', before⟩

theorem sweepFloors_spec (d : Deps) (floor : Floors) :
    keys (sweepFloors d floor).1 = keys floor ∧
      floorOf (sweepFloors d floor).1 =
        Sweep.sweep (edges d (keys floor)) (keys floor) (floorOf floor) ∧
      ((sweepFloors d floor).2 = false → (sweepFloors d floor).1 = floor) := by
  obtain ⟨sameKeys, swept, still⟩ :=
    @foldl_raiseFloor d floor (keys floor) false fun _ member => member
  exact ⟨sameKeys, swept, fun unchanged => (still unchanged).1⟩

theorem settle_spec (d : Deps) (n : Nat) (floor : Floors) :
    floorOf (settle d n floor) =
      (Sweep.sweep (edges d (keys floor)) (keys floor))^[n] (floorOf floor) := by
  induction n generalizing floor with
  | zero => rfl
  | succ n ih =>
    obtain ⟨sameKeys, swept, still⟩ := sweepFloors_spec d floor
    unfold settle
    dsimp only
    split
    · rw [ih, sameKeys, swept, Function.iterate_succ_apply]
    · rename_i unchanged
      -- A sweep that changes nothing would change nothing again.
      have same : (sweepFloors d floor).1 = floor := still (by simpa using unchanged)
      rw [same] at swept ⊢
      exact (Function.iterate_fixed swept.symm (n + 1)).symm

end

section

variable (u : PyText)

def ownFloor (debs : List Deb) (p : PyString) : Nat :=
  ((debs.filter fun deb => deb.pkg u = p).map Deb.floor).foldl max 0

def packages (debs : List Deb) : List PyString :=
  uniq (debs.map (Deb.pkg u))

/-- Lines of a text that make up a field. -/
structure IsField (lines : List PyString) (first : PyString) (more : List PyString) : Prop where
  place : ∃ before after, lines = before ++ first :: more ++ after ∧
    ∀ ln, after.head? = some ln → ¬Continues ln
  begins : ¬Continues first
  folded : ∀ ln ∈ more, Continues ln

/-- A package depends on another one, as a control file says or as is added. -/
inductive Depends (debs : List Deb) (p t : PyString) : Prop
  | named (deb : Deb) (member : deb ∈ debs) (own : deb.pkg u = p) (first : PyString)
      (more : List PyString) (field : IsField (PyText.lines deb.text) first more)
      (kind : py "Depends:" <+: first ∨ py "Pre-Depends:" <+: first)
      (mentions : t ∈ lineDeps u ([10].intercalate (first :: more)))
  | added (entry : PyString × List PyString) (member : entry ∈ dependsAdd) (own : entry.1 = p)
      (mentions : t ∈ entry.2)

/-- A package depends on another one at some distance. -/
def Reaches (debs : List Deb) : PyString → PyString → Prop :=
  Relation.ReflTransGen fun p t => Depends u debs p t ∧ ∃ deb ∈ debs, deb.pkg u = t

variable {u}

theorem mem_uniq {texts : List PyString} {t : PyString} : t ∈ uniq texts ↔ t ∈ texts := by
  have general : ∀ (texts seen : List PyString),
      t ∈ texts.foldl (fun d n => if n ∈ d then d else d ++ [n]) seen ↔ t ∈ seen ∨ t ∈ texts := by
    intro texts
    induction texts with
    | nil => simp
    | cons n texts ih =>
      intro seen
      rw [List.foldl_cons, ih, List.mem_cons]
      split
      · rename_i again
        constructor
        · rintro (before | later)
          · exact Or.inl before
          · exact Or.inr (Or.inr later)
        · rintro (before | rfl | later)
          · exact Or.inl before
          · exact Or.inl again
          · exact Or.inr later
      · rw [List.mem_append, List.mem_singleton, or_assoc]
  have whole := general texts []
  simpa [uniq] using whole

theorem exists_isField {lines : List PyString} {first : PyString} (member : first ∈ lines)
    (begins : ¬Continues first) : ∃ more, IsField lines first more := by
  obtain ⟨before, rest, rfl⟩ := List.append_of_mem member
  refine ⟨rest.takeWhile fun ln => Continues ln, ?_, begins, ?_⟩
  · refine ⟨before, rest.dropWhile fun ln => Continues ln, ?_, ?_⟩
    · rw [List.append_assoc, List.cons_append, List.takeWhile_append_dropWhile]
    · intro ln head
      have stops := List.head?_dropWhile_not (fun ln => decide (Continues ln)) rest
      rw [head] at stops
      simpa using stops
  · intro ln inside
    simpa using List.mem_takeWhile_imp inside

theorem valueOf_append {ln : PyString} (colon : 58 ∈ ln) (more : PyString) :
    valueOf (ln ++ more) = valueOf ln ++ more := by
  unfold valueOf PyText.cut
  rw [if_pos (List.mem_append_left _ colon), if_pos colon]
  simp only [Option.map_some, Option.getD_some]
  -- The colon is found before the line goes on.
  have stops : ln.dropWhile (· ≠ 58) ≠ [] := by
    intro none
    rw [List.dropWhile_eq_nil_iff] at none
    simpa using none 58 colon
  rw [List.dropWhile_append, if_neg (by simpa using stops)]
  cases rest : ln.dropWhile (· ≠ 58) with
  | nil => exact absurd rest stops
  | cons c rest => rfl

theorem alternatives_eq (ln : PyString) :
    alternatives ln = (valueOf ln).splitOnP fun c => c == 44 || c == 124 :=
  Splitting.flatMap_splitOn 44 124 (valueOf ln)

theorem mem_lineDeps {ln t : PyString} :
    t ∈ lineDeps u ln ↔ ∃ alt ∈ alternatives ln, ∃ word, (u.words alt).head? = some word ∧
      (word.takeWhile (· ≠ 40)).takeWhile (· ≠ 58) = t ∧ t ≠ [] := by
  unfold lineDeps
  rw [List.mem_filterMap]
  apply exists_congr
  intro alt
  apply and_congr_right
  intro _
  rw [PyText.words_strip]
  cases (u.words alt).head? with
  | none => simp
  | some word =>
    constructor
    · intro found
      dsimp only at found
      split at found
      · cases found
      · rename_i named
        cases found
        exact ⟨word, rfl, rfl, named⟩
    · rintro ⟨word', same, rfl, named⟩
      cases same
      exact if_neg named

theorem lineDeps_folded {first t : PyString} (colon : 58 ∈ first) (more : List PyString)
    (mentions : t ∈ lineDeps u first) : t ∈ lineDeps u ([10].intercalate (first :: more)) := by
  cases more with
  | nil => rwa [List.intercalate_singleton]
  | cons next more =>
    rw [List.intercalate_cons_cons, List.append_assoc, List.singleton_append]
    generalize [10].intercalate (next :: more) = rest
    rw [mem_lineDeps] at mentions ⊢
    obtain ⟨alt, member, word, begins, named⟩ := mentions
    rw [alternatives_eq] at member ⊢
    rw [valueOf_append colon]
    obtain ⟨pieces, last, whole, further⟩ :=
      Splitting.splitOnP_append (fun c => c == 44 || c == 124) (valueOf first)
    rw [whole, List.mem_append, List.mem_singleton] at member
    rw [further]
    rcases member with earlier | rfl
    · exact ⟨alt, List.mem_append_left _ earlier, word, begins, named⟩
    · -- The last alternative goes on after white space, which does not change its first word.
      have pieces' := List.splitOnP_ne_nil (fun c => c == 44 || c == 124) rest
      obtain ⟨piece, others, split⟩ := List.exists_cons_of_ne_nil pieces'
      refine ⟨alt ++ 10 :: piece, ?_, word, ?_, named⟩
      · rw [List.splitOnP_cons_eq_if_modifyHead, split]
        simp
      · have space : u.isSpace 10 = true := by
          rw [u.space_ascii 10 (by decide)]
          rfl
        rw [PyText.words_append_cons space, List.head?_append, begins]
        rfl

theorem mem_depsOf {text t : PyString} (member : t ∈ depsOf u text) : ∃ first more,
    IsField (PyText.lines text) first more ∧
      (py "Depends:" <+: first ∨ py "Pre-Depends:" <+: first) ∧
      t ∈ lineDeps u ([10].intercalate (first :: more)) := by
  unfold depsOf at member
  rw [mem_uniq, List.mem_flatMap] at member
  obtain ⟨first, inside, mentions⟩ := member
  rw [List.mem_filter, Bool.or_eq_true, List.isPrefixOf_iff_prefix,
    List.isPrefixOf_iff_prefix] at inside
  obtain ⟨line, kind⟩ := inside
  -- Such a line has a colon, and no white space before it.
  have shape : 58 ∈ first ∧ ¬Continues first := by
    unfold Continues
    rcases kind with ⟨rest, rfl⟩ | ⟨rest, rfl⟩
    · exact ⟨by simp [py], by simp [py]⟩
    · exact ⟨by simp [py], by simp [py]⟩
  obtain ⟨more, field⟩ := exists_isField line shape.2
  exact ⟨first, more, field, kind, lineDeps_folded shape.1 more mentions⟩

theorem depsAt_set (d : Deps) (p : PyString) (ts : List PyString) (q : PyString) :
    depsAt (d.set (p, ts)) q = if p = q then ts else depsAt d q := by
  unfold depsAt
  rw [Dict.get_set]
  by_cases same : p = q
  · simp [same]
  · simp [same]

end

section

variable {u : PyText} {debs : List Deb} {p t : PyString}

theorem mem_named (member : t ∈ depsAt (named u debs) p) :
    ∃ deb ∈ debs, deb.pkg u = p ∧ t ∈ depsOf u deb.text := by
  have general : ∀ (debs : List Deb) (d : Deps),
      t ∈ depsAt (debs.foldl (fun deps deb => deps.set (deb.pkg u, depsOf u deb.text)) d) p →
        t ∈ depsAt d p ∨ ∃ deb ∈ debs, deb.pkg u = p ∧ t ∈ depsOf u deb.text := by
    intro debs
    induction debs with
    | nil =>
      intro d member
      exact Or.inl member
    | cons deb debs ih =>
      intro d member
      rw [List.foldl_cons] at member
      rcases ih _ member with before | ⟨other, inside, found⟩
      · rw [depsAt_set] at before
        split at before
        · rename_i own
          exact Or.inr ⟨deb, List.mem_cons_self, own, before⟩
        · exact Or.inl before
      · exact Or.inr ⟨other, List.mem_cons_of_mem _ inside, found⟩
  rcases general debs (Dict.empty _) member with before | found
  · cases before
  · exact found

theorem mem_deps (member : t ∈ depsAt (deps u debs) p) : Depends u debs p t := by
  have general : ∀ (entries : List (PyString × List PyString)) (d : Deps),
      t ∈ depsAt (entries.foldl addDeps d) p →
        t ∈ depsAt d p ∨ ∃ entry ∈ entries, entry.1 = p ∧ t ∈ entry.2 := by
    intro entries
    induction entries with
    | nil =>
      intro d member
      exact Or.inl member
    | cons entry entries ih =>
      intro d member
      rw [List.foldl_cons] at member
      rcases ih _ member with before | ⟨other, inside, found⟩
      · unfold addDeps at before
        split at before
        · rw [depsAt_set] at before
          split at before
          · rename_i own
            rw [mem_uniq, List.mem_append] at before
            rcases before with old | new
            · exact Or.inl (own ▸ old)
            · exact Or.inr ⟨entry, List.mem_cons_self, own, new⟩
          · exact Or.inl before
        · exact Or.inl before
      · exact Or.inr ⟨other, List.mem_cons_of_mem _ inside, found⟩
  rcases general dependsAdd _ member with read | ⟨entry, inside, own, mentions⟩
  · obtain ⟨deb, inside, own, found⟩ := mem_named read
    obtain ⟨first, more, field, kind, mentions⟩ := mem_depsOf found
    exact .named deb inside own first more field kind mentions
  · exact .added entry inside own mentions

theorem keys_own : keys (own u debs) = packages u debs := by
  have general : ∀ (debs : List Deb) (floor : Floors),
      keys (debs.foldl (fun own deb =>
          own.set (deb.pkg u, max (floorOf own (deb.pkg u)) deb.floor)) floor) =
        (debs.map (Deb.pkg u)).foldl (fun d n => if n ∈ d then d else d ++ [n]) (keys floor) := by
    intro debs
    induction debs with
    | nil => exact fun _ => rfl
    | cons deb debs ih =>
      intro floor
      rw [List.foldl_cons, ih, List.map_cons, List.foldl_cons]
      congr 1
      split
      · rename_i again
        exact Dict.keys_set again
      · rename_i new
        exact Dict.keys_set_new new
  exact general debs (Dict.empty _)

theorem floorOf_own (p : PyString) : floorOf (own u debs) p = ownFloor u debs p := by
  have general : ∀ (debs : List Deb) (floor : Floors),
      floorOf (debs.foldl (fun own deb =>
          own.set (deb.pkg u, max (floorOf own (deb.pkg u)) deb.floor)) floor) p =
        ((debs.filter fun deb => deb.pkg u = p).map Deb.floor).foldl max (floorOf floor p) := by
    intro debs
    induction debs with
    | nil => exact fun _ => rfl
    | cons deb debs ih =>
      intro floor
      rw [List.foldl_cons, ih, floorOf_set, List.filter_cons]
      by_cases same : deb.pkg u = p
      · simp [same]
      · simp [same, Function.update_of_ne (Ne.symm same)]
  exact general debs (Dict.empty _)

theorem reaches_of_swept {k : Nat} {q : PyString}
    (swept : Sweep.Swept (edges (deps u debs) (packages u debs)) (packages u debs) k p q) :
    Reaches u debs p q := by
  have step : ∀ {p t}, t ∈ edges (deps u debs) (packages u debs) p →
      Depends u debs p t ∧ ∃ deb ∈ debs, deb.pkg u = t := by
    intro p t edge
    unfold edges at edge
    rw [List.mem_filter, decide_eq_true_iff] at edge
    refine ⟨mem_deps edge.1, ?_⟩
    have inside := mem_uniq.mp edge.2
    simpa using inside
  induction swept with
  | own => exact .refl
  | before edge _ ih => exact .head (step edge) ih
  | same edge _ _ ih => exact .head (step edge) ih

/--
The floor of a package is the highest of those it depends on if sweeps bring one as high.

There are at most forty sweeps, along dependencies that the first lines of fields mention.
-/
theorem floors_closure {files : List Deb} (member : p ∈ packages u (listing files)) :
    IsGreatest {x | ∃ q, Reaches u (listing files) p q ∧ ownFloor u (listing files) q = x}
        (floorOf (floors u files) p) ↔
      ∀ q, Reaches u (listing files) p q → ∃ q',
        Sweep.Swept (edges (deps u (listing files)) (packages u (listing files)))
          (packages u (listing files)) 40 p q' ∧
        ownFloor u (listing files) q ≤ ownFloor u (listing files) q' := by
  generalize given : listing files = debs at member ⊢
  have distinct : (packages u debs).Nodup := by
    rw [← keys_own]
    exact (own u debs).distinct
  have values : floorOf (floors u files) =
      (Sweep.sweep (edges (deps u debs) (packages u debs)) (packages u debs))^[40]
        (ownFloor u debs) := by
    unfold floors
    rw [given, settle_spec, keys_own, funext floorOf_own]
  have closed : ∀ p ∈ packages u debs,
      ∀ t ∈ edges (deps u debs) (packages u debs) p, t ∈ packages u debs := by
    intro p _ t edge
    unfold edges at edge
    simpa using (List.mem_filter.mp edge).2
  -- After forty sweeps a floor is the greatest one that so many of them bring.
  have settled : Sweep.Holds _ _ (ownFloor u debs) 40 _ := .iterate distinct closed 40
  have holds := settled p member
  rw [← values] at holds
  constructor
  · intro greatest q reached
    obtain ⟨q', swept, same⟩ := holds.1
    exact ⟨q', swept, (greatest.2 ⟨q, reached, rfl⟩).trans same.ge⟩
  · intro brought
    constructor
    · obtain ⟨q', swept, same⟩ := holds.1
      exact ⟨q', reaches_of_swept swept, same⟩
    · rintro x ⟨q, reached, rfl⟩
      obtain ⟨q', swept, less⟩ := brought q reached
      exact less.trans (holds.2 ⟨q', swept, rfl⟩)

end

def link (i : Nat) : PyString :=
  [97 + i / 10, 97 + i % 10]

def linkDeb (floor : Nat → Nat) (i : Nat) : Deb where
  fn := link i ++ py ".deb"
  text := py "Package: " ++ link i ++ 10 :: py "Depends: " ++ link (i + 1) ++ [10]
  floor := floor i

def chain (n : Nat) : List Deb :=
  (List.range n).map (linkDeb fun i => if i + 1 = n then 1 else 0)

theorem ownFloor_le {debs : List Deb} {c : Nat} (most : ∀ deb ∈ debs, deb.floor ≤ c)
    (p : PyString) : ownFloor u debs p ≤ c := by
  refine List.foldlRecOn (motive := (· ≤ c)) _ max (Nat.zero_le c) fun floor low own here => ?_
  obtain ⟨deb, listed, rfl⟩ := List.mem_map.mp here
  exact max_le low (most deb (List.mem_of_mem_filter listed))

/-- Two sweeps bring the floor of the last package of a chain of three to the first one. -/
theorem floors_closure_chain :
    IsGreatest {x | ∃ q, Reaches .ascii (listing (chain 3)) (link 0) q ∧
        ownFloor .ascii (listing (chain 3)) q = x}
      (floorOf (floors .ascii (chain 3)) (link 0)) := by
  refine (floors_closure (by decide +kernel)).mpr fun q _ => ⟨link 2, ?_, ?_⟩
  · exact .before (t := link 1) (by decide +kernel)
      (.before (t := link 2) (by decide +kernel) .own)
  · have last : ownFloor .ascii (listing (chain 3)) (link 2) = 1 := by decide +kernel
    rw [last]
    exact ownFloor_le (by decide +kernel) q

theorem exists_link {n i : Nat} (short : n ≤ 42) (inside : i < n) : ∃ deb ∈ listing (chain n),
    deb.pkg .ascii = link i ∧ link (i + 1) ∈ depsOf .ascii deb.text := by
  have texts : ∀ i < 42, packageOf .ascii (linkDeb (fun _ => 0) i).text = some (link i) ∧
      link (i + 1) ∈ depsOf .ascii (linkDeb (fun _ => 0) i).text := by
    decide +kernel
  have file := texts i (by omega)
  refine ⟨linkDeb (fun i => if i + 1 = n then 1 else 0) i, ?_, ?_, file.2⟩
  · unfold listing
    rw [(List.perm_insertionSort _ _).mem_iff, List.mem_filter]
    refine ⟨List.mem_map.mpr ⟨i, List.mem_range.mpr inside, rfl⟩, ?_⟩
    rw [List.isSuffixOf_iff_suffix]
    exact ⟨link i, rfl⟩
  · have named : packageOf .ascii (linkDeb (fun i => if i + 1 = n then 1 else 0) i).text =
        some (link i) := file.1
    unfold Deb.pkg
    rw [named]
    rfl

theorem reaches_chain {n k : Nat} (short : n ≤ 42) (inside : k < n) :
    Reaches .ascii (listing (chain n)) (link 0) (link k) := by
  induction k with
  | zero => exact .refl
  | succ k ih =>
    refine (ih (by omega)).tail ?_
    obtain ⟨deb, member, own, mentions⟩ := exists_link (i := k) short (by omega)
    obtain ⟨next, member', own', -⟩ := exists_link short inside
    obtain ⟨first, more, field, kind, named⟩ := mem_depsOf mentions
    exact ⟨.named deb member own first more field kind named, next, member', own'⟩

/-- In a chain of forty-two packages the floor of the last one does not come to the first one. -/
theorem not_floors_closure : ¬∀ (u : PyText) (files : List Deb),
    ∀ p ∈ packages u (listing files),
      IsGreatest {x | ∃ q, Reaches u (listing files) p q ∧ ownFloor u (listing files) q = x}
        (floorOf (floors u files) p) := by
  intro claim
  have greatest := claim .ascii (chain 42) (link 0) (by decide +kernel)
  have reached : Reaches .ascii (listing (chain 42)) (link 0) (link 41) :=
    reaches_chain (by decide) (by decide)
  have less := greatest.2 ⟨link 41, reached, rfl⟩
  have values : ¬ownFloor .ascii (listing (chain 42)) (link 41) ≤
      floorOf (floors .ascii (chain 42)) (link 0) := by
    decide +kernel
  exact values less

end StampMinos

end Xios
