import Mathlib.Data.List.ReduceOption
import Xios.Lib.Worklist
import Xios.Repo.Merge
import Xios.Repo.VersionsLaws

/-! The check of `check-repo-solvable.py` that packages of an index can be installed. -/

namespace Xios

namespace CheckRepoSolvable

open Versions (DebianVersion compareDebVersions versionCompare)

def allow : List PyString :=
  [py "firmware", py "apt", py "dpkg", py "base"]

/-- A package that does not work without its companion. -/
structure Companion where
  trigger : PyString
  companion : PyString
  why : PyString

def companions : List Companion :=
  [⟨py "com.max.xios", py "xios-launcher-tools",
    py "the app's desktop picker talks to ioscd, which ships there"⟩]

/-- A block of an index that names a package. -/
structure Stanza where
  fields : PyString → Option PyString
  package : PyString
  named : fields (py "Package") = some package
  nonempty : package ≠ []

def Stanza.field (s : Stanza) (name : PyString) : PyString :=
  (s.fields name).getD []

/-- An alternative of a dependency, with the relation and the version it may ask for. -/
structure Alternative where
  name : PyString
  constraint : Option (PyString × PyString)

section

variable (u : PyText)

def parseLine (d : (PyString → Option PyString) × PyString) (line : PyString) :
    (PyString → Option PyString) × PyString :=
  if line.head?.any (fun c => c = 32 || c = 9) ∧ d.2 ≠ [] then
    (Function.update d.1 d.2 ((d.1 d.2).map (· ++ 32 :: u.strip line)), d.2)
  else
    match PyText.cut 58 line with
    | some (key, val) => (Function.update d.1 (u.strip key) (some (u.strip val)), u.strip key)
    | none => d

def parseBlock (block : PyString) : PyString → Option PyString :=
  ((PyText.lines block).foldl (parseLine u) (fun _ => none, [])).1

def readStanza (block : PyString) : Option Stanza :=
  (parseBlock u block (py "Package")).pmap
    (fun package (named : parseBlock u block (py "Package") = some package) =>
      if nonempty : package ≠ [] then some ⟨parseBlock u block, package, named, nonempty⟩ else none)
    (fun _ => Option.mem_def.mp) |>.join

def parse (raw : PyString) : List Stanza :=
  ((PyText.splitPairs 10 (PyText.readLines raw)).filter fun block => !block.all u.isSpace).filterMap
    (readStanza u)

def isRelation (c : Nat) : Bool :=
  c = 60 || c = 61 || c = 62

/-- What `ALT_RE` finds between the parentheses of an alternative. -/
def readConstraint (text : PyString) : Option (PyString × PyString) :=
  let op := (text.dropWhile u.isSpace).takeWhile isRelation
  let rest := (text.dropWhile u.isSpace).dropWhile isRelation
  if op = [] then none
  else if u.strip rest ≠ [] then some (op, u.strip rest)
  else
    -- The version takes the last blank, or else the last character of the relation.
    match rest.getLast?, op.reverse with
    | some c, _ => some (op, [c])
    | none, c :: front => if front = [] then none else some (front.reverse, [c])
    | none, [] => none

def matchAlternative (alt : PyString) : Option (PyString × Option (PyString × PyString)) :=
  let nameChar c := !u.isSpace c && c ≠ 40
  let name := alt.takeWhile nameChar
  if name = [] then none
  else
    match (alt.dropWhile nameChar).dropWhile u.isSpace with
    | [] => some (name, none)
    | c :: rest =>
      if c = 40 ∧ rest.getLast? = some 41 ∧ 41 ∉ rest.dropLast then
        (readConstraint u rest.dropLast).map fun constraint => (name, some constraint)
      else none

def unqualified (name : PyString) : PyString :=
  name.takeWhile (· ≠ 58)

def readAlternative (alt : PyString) : Option Alternative :=
  match matchAlternative u (u.strip alt) with
  | some (name, constraint) =>
    if unqualified name = [] then none else some ⟨unqualified name, constraint⟩
  | none => (u.words alt).head?.map fun word => ⟨unqualified word, none⟩

def depClauses (field : PyString) : List (List Alternative) :=
  ((field.splitOn 44).map fun clause => (clause.splitOn 124).filterMap (readAlternative u)).filter
    (!·.isEmpty)

def dependencies (s : Stanza) : List (List Alternative) :=
  depClauses u (s.field (py "Pre-Depends")) ++ depClauses u (s.field (py "Depends"))

def provides (s : Stanza) : List PyString :=
  ((s.field (py "Provides")).splitOn 44).filterMap fun pv =>
    ((u.words pv).head?.map unqualified).filter (· ≠ [])

def constraintOk (version op want : PyString) : Option Bool :=
  (versionCompare u version want).map fun c =>
    if op = py ">=" ∨ op = py ">" then decide (0 ≤ c)
    else if op = py ">>" then decide (0 < c)
    else if op = py "<=" ∨ op = py "<" then decide (c ≤ 0)
    else if op = py "<<" then decide (c < 0)
    else if op = py "=" then decide (c = 0)
    else true

variable (stanzas : List Stanza)

def byName (name : PyString) : Option Stanza :=
  stanzas.reverse.find? fun s => s.package = name

def providers (name : PyString) : Option PyString :=
  (stanzas.find? fun s => name ∈ provides u s).map Stanza.package

def pick (alts : List Alternative) : Option PyString :=
  alts.findSome? fun alt =>
    if (byName stanzas alt.name).isSome then some alt.name else providers u stanzas alt.name

def installs : FiniteGraph PyString where
  inner := stanzas.map Stanza.package
  after name :=
    match byName stanzas name with
    | none => []
    | some s => (dependencies u s).filterMap (pick u stanzas)
  outer := by
    intro name foreign
    have none : byName stanzas name = none := by
      refine List.find?_eq_none.mpr fun s member => ?_
      simp only [decide_eq_true_eq]
      rintro rfl
      exact foreign (List.mem_map_of_mem (List.mem_reverse.mp member))
    rw [none]

def missingCompanions : List (Stanza × Companion) :=
  stanzas.flatMap fun s =>
    (companions.filter fun rule => rule.trigger ≠ s.package ∧
      rule.trigger ∈ (installs u stanzas).closure s.package ∧
      rule.companion ∉ (installs u stanzas).closure s.package).map (s, ·)

variable (base : Option PyString)

def baseNames : List PyString :=
  (((PyText.readLines (base.getD [])).splitOn 10).map u.strip).filter (· ≠ [])

def available : List PyString :=
  allow ++ baseNames u base ++ stanzas.flatMap fun s => s.package :: provides u s

def ours (name : PyString) : Option PyString :=
  (stanzas.reverse.find? fun s => s.package = name ∧ s.field (py "Version") ≠ []).map
    (·.field (py "Version"))

def holds (alt : Alternative) : Option Bool :=
  if alt.name ∉ available u stanzas base then some false
  else
    match alt.constraint, ours stanzas alt.name with
    | some (op, ver), some version => constraintOk u version op ver
    | _, _ => some true

def anyHolds : List Alternative → Option Bool
  | [] => some false
  | alt :: rest => (holds u stanzas base alt).bind fun ok => if ok then some true else anyHolds rest

/-- A dependency that cannot be resolved. -/
structure Problem where
  package : PyString
  dep : PyString
  reason : PyString

def joinWith (separator : String) (texts : List PyString) : PyString :=
  (py separator).intercalate texts

def clauseText (alts : List Alternative) : PyString :=
  joinWith " | " (alts.map fun alt =>
    match alt.constraint with
    | some (op, ver) => alt.name ++ py " (" ++ op ++ 32 :: ver ++ py ")"
    | none => alt.name)

def reasonOf (alts : List Alternative) : PyString :=
  if alts.any fun alt => alt.name ∈ available u stanzas base then
    let published := joinWith ", " (alts.filterMap fun alt =>
      (ours stanzas alt.name).map fun version => alt.name ++ 32 :: version)
    py "version too low (published: " ++ (if published = [] then py "unknown" else published) ++
      py ")"
  else py "no such package"

def allClauses : List (Stanza × List Alternative) :=
  stanzas.flatMap fun s => (dependencies u s).map (s, ·)

def problem (clause : Stanza × List Alternative) : Option (Option Problem) :=
  (anyHolds u stanzas base clause.2).map fun ok =>
    if ok = true then none
    else some ⟨clause.1.package, clauseText clause.2, reasonOf u stanzas base clause.2⟩

def problems : Option (List Problem) :=
  ((allClauses u stanzas).mapM (problem u stanzas base)).map List.reduceOption

/-- What a run prints and returns. -/
structure Outcome where
  exit : Nat
  stdout : List PyString
  stderr : List PyString

def lonelyLines (lonely : List (Stanza × Companion)) : List PyString :=
  if lonely = [] then []
  else
    (10 :: py "MISSING COMPANIONS (" ++ PyText.numeral lonely.length ++ py "):") ::
      ((lonely.map fun (s, rule) => [s.package, rule.trigger, rule.companion, rule.why]).insertionSort
        (· ≤ ·)).map fun line =>
          match line with
          | [pkg, trigger, companion, why] =>
            py "  " ++ pkg ++ py " installs " ++ trigger ++ py " but not " ++ companion ++ py ": " ++ why
          | _ => []

def fatalLines (fatal : List Problem) : List PyString :=
  if fatal = [] then []
  else
    (10 :: py "UNRESOLVABLE DEPENDENCIES (" ++ PyText.numeral fatal.length ++ py "):") ::
      ((fatal.map fun p => [p.package, p.dep, p.reason]).insertionSort (· ≤ ·)).map fun line =>
        match line with
        | [pkg, dep, reason] => py "  " ++ pkg ++ py "  ->  " ++ dep ++ py "   [" ++ reason ++ py "]"
        | _ => []

def conclude (count : Nat) (warning : List PyString) (lonely : List (Stanza × Companion))
    (fatal : List Problem) : Outcome :=
  let told := warning ++ lonelyLines lonely ++ fatalLines fatal
  if fatal ≠ [] then
    ⟨1, [], told ++ [10 :: py "FAIL: repo advertises impossible installs. Fix the Depends or " ++
      py "drop the package from the published set before publishing."]⟩
  else if lonely ≠ [] then
    ⟨1, [], told ++ [10 :: py "FAIL: repo advertises installs that cannot work. Add the companion " ++
      py "to a Depends in the installing package's closure (usually its meta)."]⟩
  else
    ⟨0, [py "OK: all Depends/Pre-Depends resolvable across " ++ PyText.numeral count ++
      py " packages."], told⟩

/-- A run on the text of an index, with the file that lists the base system. -/
def main (raw baseFile : PyString) : Option Outcome :=
  let warning := if base.isNone then [py "WARN: " ++ baseFile ++ py
    " missing — Procursus base deps will be flagged as false positives."] else []
  (problems u (parse u raw) base).map
    (conclude (parse u raw).length warning (missingCompanions u (parse u raw)))

/-- The relation that a dependency asks for, in the order of versions that `dpkg` has. -/
def Meets (version op want : PyString) : Prop :=
  (op = py ">=" ∨ op = py ">" → 0 ≤ compareDebVersions u version want) ∧
    (op = py ">>" → 0 < compareDebVersions u version want) ∧
    (op = py "<=" ∨ op = py "<" → compareDebVersions u version want ≤ 0) ∧
    (op = py "<<" → compareDebVersions u version want < 0) ∧
    (op = py "=" → compareDebVersions u version want = 0)

/-- The name is there, in a version that will do if the version is known. -/
def Satisfied (alt : Alternative) : Prop :=
  alt.name ∈ available u stanzas base ∧
    ∀ op ver version, alt.constraint = some (op, ver) → ours stanzas alt.name = some version →
      Meets u version op ver

/-- All versions that are compared have the syntax of versions. -/
structure Versioned : Prop where
  published : ∀ name version, ours stanzas name = some version → DebianVersion version
  wanted : ∀ s ∈ stanzas, ∀ alts ∈ dependencies u s, ∀ alt ∈ alts, ∀ op ver,
    alt.constraint = some (op, ver) → DebianVersion ver

/-- Each package brings along the companions of what it brings along. -/
def Accompanied : Prop :=
  ∀ s ∈ stanzas, ∀ rule ∈ companions, rule.trigger ≠ s.package →
    (installs u stanzas).Reaches s.package rule.trigger →
    (installs u stanzas).Reaches s.package rule.companion

variable {u} {stanzas} {base}

theorem constraintOk_spec {version want : PyString} (op : PyString) (first : DebianVersion version)
    (second : DebianVersion want) :
    ∃ ok, constraintOk u version op want = some ok ∧ (ok = true ↔ Meets u version op want) := by
  obtain ⟨c, compared, same⟩ := Versions.versionCompare_agrees u first second
  -- Only the sign of a comparison matters, and on that both programs agree.
  have atLeast : 0 ≤ c ↔ 0 ≤ compareDebVersions u version want := by
    rw [← Int.sign_nonneg_iff, same, Int.sign_nonneg_iff]
  have atMost : c ≤ 0 ↔ compareDebVersions u version want ≤ 0 := by
    rw [← Int.sign_nonpos_iff, same, Int.sign_nonpos_iff]
  refine ⟨_, by rw [constraintOk, compared, Option.map_some], ?_⟩
  unfold Meets
  generalize compareDebVersions u version want = c' at atLeast atMost
  by_cases known : op = py ">=" ∨ op = py ">" ∨ op = py ">>" ∨ op = py "<=" ∨ op = py "<" ∨
      op = py "<<" ∨ op = py "="
  · obtain rfl | rfl | rfl | rfl | rfl | rfl | rfl := known <;> simp [py] <;> omega
  · simp only [not_or] at known
    simp [known]

variable {alts : List Alternative} {s : Stanza}

variable (base) in
theorem holds_spec (versioned : Versioned u stanzas) (member : s ∈ stanzas)
    (clause : alts ∈ dependencies u s) {alt : Alternative} (listed : alt ∈ alts) :
    ∃ ok, holds u stanzas base alt = some ok ∧ (ok = true ↔ Satisfied u stanzas base alt) := by
  unfold holds Satisfied
  by_cases there : alt.name ∈ available u stanzas base
  · rw [if_neg (not_not.mpr there)]
    cases asked : alt.constraint with
    | none => exact ⟨true, rfl, by simp [there]⟩
    | some constraint =>
      cases known : ours stanzas alt.name with
      | none => exact ⟨true, rfl, by simp [there]⟩
      | some version =>
        obtain ⟨ok, tested, means⟩ := constraintOk_spec constraint.1
          (versioned.published _ _ known) (versioned.wanted s member alts clause alt listed _ _ asked)
        refine ⟨ok, tested, means.trans ⟨fun meets => ⟨there, ?_⟩, fun all => ?_⟩⟩
        · rintro op ver _ ⟨⟩ ⟨⟩
          exact meets
        · exact all.2 _ _ _ rfl rfl
  · rw [if_pos there]
    exact ⟨false, rfl, by simp [there]⟩

variable (base) in
theorem anyHolds_spec (versioned : Versioned u stanzas) (member : s ∈ stanzas)
    (clause : alts ∈ dependencies u s) :
    ∃ ok, anyHolds u stanzas base alts = some ok ∧
      (ok = true ↔ ∃ alt ∈ alts, Satisfied u stanzas base alt) := by
  have tests : ∀ alt ∈ alts, ∃ ok, holds u stanzas base alt = some ok ∧
      (ok = true ↔ Satisfied u stanzas base alt) :=
    fun _ listed => holds_spec base versioned member clause listed
  clear clause
  induction alts with
  | nil => exact ⟨false, rfl, by simp⟩
  | cons alt rest ih =>
    obtain ⟨ok, tested, means⟩ := tests alt List.mem_cons_self
    obtain ⟨later, restTested, restMeans⟩ :=
      ih fun alt listed => tests alt (List.mem_cons_of_mem _ listed)
    simp only [anyHolds, tested, Option.bind_some, List.mem_cons, exists_eq_or_imp]
    cases ok with
    | true => exact ⟨true, rfl, by simp [← means]⟩
    | false =>
      refine ⟨later, restTested, restMeans.trans ⟨.inr, fun found => ?_⟩⟩
      exact found.resolve_left fun first => by cases means.mpr first

theorem mapM_of_isSome {α β : Type} {f : α → Option β} {l : List α}
    (defined : ∀ a ∈ l, ∃ b, f a = some b) :
    ∃ bs, l.mapM f = some bs ∧ ∀ b, b ∈ bs ↔ ∃ a ∈ l, f a = some b := by
  induction l with
  | nil => exact ⟨[], rfl, by simp⟩
  | cons a l ih =>
    obtain ⟨b, first⟩ := defined a List.mem_cons_self
    obtain ⟨bs, rest, members⟩ := ih fun a later => defined a (List.mem_cons_of_mem _ later)
    refine ⟨b :: bs, ?_, fun c => ?_⟩
    · rw [List.mapM_cons, first, rest]
      rfl
    · simp only [List.mem_cons, members, exists_eq_or_imp, first, Option.some.injEq, eq_comm (a := c)]

variable (base) in
theorem problems_spec (versioned : Versioned u stanzas) :
    ∃ fatal, problems u stanzas base = some fatal ∧ ∀ p, p ∈ fatal ↔
      ∃ s ∈ stanzas, ∃ alts ∈ dependencies u s, (¬∃ alt ∈ alts, Satisfied u stanzas base alt) ∧
        p = ⟨s.package, clauseText alts, reasonOf u stanzas base alts⟩ := by
  have tested : ∀ s ∈ stanzas, ∀ alts ∈ dependencies u s, ∃ found,
      problem u stanzas base (s, alts) = some found ∧ ∀ p, found = some p ↔
        (¬∃ alt ∈ alts, Satisfied u stanzas base alt) ∧
          p = ⟨s.package, clauseText alts, reasonOf u stanzas base alts⟩ := by
    intro s member alts clause
    obtain ⟨ok, any, means⟩ := anyHolds_spec base versioned member clause
    refine ⟨_, by rw [problem, any, Option.map_some], fun p => ?_⟩
    rw [← means]
    cases ok <;> simp [eq_comm]
  have clauses : ∀ c, c ∈ allClauses u stanzas ↔ c.1 ∈ stanzas ∧ c.2 ∈ dependencies u c.1 := by
    rintro ⟨s, alts⟩
    simp [allClauses]
  obtain ⟨found, all, members⟩ := mapM_of_isSome (f := problem u stanzas base)
    (l := allClauses u stanzas) fun c member =>
      have ⟨there, clause⟩ := (clauses c).mp member
      have ⟨found, is, _⟩ := tested c.1 there c.2 clause
      ⟨found, is⟩
  refine ⟨found.reduceOption, by rw [problems, all, Option.map_some], fun p => ?_⟩
  rw [List.reduceOption_mem_iff, members]
  constructor
  · rintro ⟨⟨s, alts⟩, member, is⟩
    obtain ⟨there, clause⟩ := (clauses _).mp member
    obtain ⟨found, is', means⟩ := tested s there alts clause
    exact ⟨s, there, alts, clause, (means p).mp (Option.some.inj (is'.symm.trans is))⟩
  · rintro ⟨s, there, alts, clause, what⟩
    obtain ⟨found, is, means⟩ := tested s there alts clause
    exact ⟨(s, alts), (clauses _).mpr ⟨there, clause⟩, is.trans (congrArg some ((means p).mpr what))⟩

theorem missingCompanions_eq_nil :
    missingCompanions u stanzas = [] ↔ Accompanied u stanzas := by
  simp only [missingCompanions, List.flatMap_eq_nil_iff, List.map_eq_nil_iff,
    List.filter_eq_nil_iff, decide_eq_true_eq, FiniteGraph.mem_closure, Accompanied, not_and,
    not_not]

theorem mem_fatalLines {fatal : List Problem} {p : Problem} (member : p ∈ fatal) :
    py "  " ++ p.package ++ py "  ->  " ++ p.dep ++ py "   [" ++ p.reason ++ py "]" ∈
      fatalLines fatal := by
  unfold fatalLines
  rw [if_neg (List.ne_nil_of_mem member)]
  refine List.mem_cons_of_mem _ (List.mem_map.mpr ⟨[p.package, p.dep, p.reason], ?_, rfl⟩)
  rw [List.mem_insertionSort]
  exact List.mem_map_of_mem member

section

variable {count : Nat} {warning : List PyString} {lonely : List (Stanza × Companion)}
  {fatal : List Problem}

theorem conclude_exit : (conclude count warning lonely fatal).exit = 0 ↔ fatal = [] ∧ lonely = [] := by
  unfold conclude
  split
  · simp [*]
  · split <;> simp_all

theorem mem_conclude {line : PyString} (told : line ∈ fatalLines fatal) :
    line ∈ (conclude count warning lonely fatal).stderr := by
  have all := List.mem_append_right (warning ++ lonelyLines lonely) told
  unfold conclude
  split
  · exact List.mem_append_left _ all
  · split
    · exact List.mem_append_left _ all
    · exact all

end

variable (u base) in
/--
The check accepts exactly the indexes whose packages can be installed and work.

A run always ends, and returns zero if and only if each clause of each dependency has an
alternative that is there in a version that will do, and each package that brings along the
host app also brings along the tools it needs, however long the chain of dependencies is.
Every clause without such an alternative is reported with its package and the reason.
-/
theorem main_accepts {raw : PyString} (baseFile : PyString) (versioned : Versioned u (parse u raw)) :
    ∃ outcome, main u base raw baseFile = some outcome ∧
      (outcome.exit = 0 ↔ (∀ s ∈ parse u raw, ∀ alts ∈ dependencies u s,
        ∃ alt ∈ alts, Satisfied u (parse u raw) base alt) ∧ Accompanied u (parse u raw)) ∧
      ∀ s ∈ parse u raw, ∀ alts ∈ dependencies u s,
        (¬∃ alt ∈ alts, Satisfied u (parse u raw) base alt) →
        py "  " ++ s.package ++ py "  ->  " ++ clauseText alts ++ py "   [" ++
          reasonOf u (parse u raw) base alts ++ py "]" ∈ outcome.stderr := by
  obtain ⟨fatal, found, members⟩ := problems_spec base versioned
  have solvable : fatal = [] ↔ ∀ s ∈ parse u raw, ∀ alts ∈ dependencies u s,
      ∃ alt ∈ alts, Satisfied u (parse u raw) base alt := by
    rw [List.eq_nil_iff_forall_not_mem]
    refine ⟨fun none s there alts clause => ?_, fun all p member => ?_⟩
    · by_contra unsatisfied
      exact none _ ((members _).mpr ⟨s, there, alts, clause, unsatisfied, rfl⟩)
    · obtain ⟨s, there, alts, clause, unsatisfied, -⟩ := (members p).mp member
      exact unsatisfied (all s there alts clause)
  refine ⟨_, by rw [main, found, Option.map_some], ?_, ?_⟩
  · rw [conclude_exit, solvable, missingCompanions_eq_nil]
  · intro s there alts clause unsatisfied
    exact mem_conclude (mem_fatalLines ((members _).mpr ⟨s, there, alts, clause, unsatisfied, rfl⟩))

instance (c : Nat) : Decidable (Versions.VersionChar c) :=
  inferInstanceAs (Decidable (_ ∨ _))

theorem versioned_of_plain (plain : ∀ s ∈ stanzas,
    (∀ c ∈ s.field (py "Version"), Versions.VersionChar c) ∧ ∀ alts ∈ dependencies u s,
      ∀ alt ∈ alts, ∀ constraint ∈ alt.constraint, ∀ c ∈ constraint.2, Versions.VersionChar c) :
    Versioned u stanzas where
  published name version known := by
    obtain ⟨s, found, rfl⟩ := Option.map_eq_some_iff.mp known
    exact .inl (plain s (List.mem_reverse.mp (List.mem_of_find?_eq_some found))).1
  wanted s member alts clause alt listed op ver asked :=
    .inl ((plain s member).2 alts clause alt listed _ asked)

/-- A package that needs a later version of another one than is published. -/
def latePackage : PyString :=
  py "Package: a\nDepends: libc | b (>= 2)\n\nPackage: b\nVersion: 1.9\n"

theorem main_accepts_late :
    (main .ascii none latePackage (py "names.txt")).map (·.exit) = some 1 ∧
      ¬((∀ s ∈ parse .ascii latePackage, ∀ alts ∈ dependencies .ascii s,
        ∃ alt ∈ alts, Satisfied .ascii (parse .ascii latePackage) none alt) ∧
        Accompanied .ascii (parse .ascii latePackage)) := by
  have versioned : Versioned .ascii (parse .ascii latePackage) :=
    versioned_of_plain (by decide +kernel)
  have exits : (main .ascii none latePackage (py "names.txt")).map (·.exit) = some 1 := by
    decide +kernel
  obtain ⟨outcome, ran, accepted, -⟩ := main_accepts .ascii none (py "names.txt") versioned
  refine ⟨exits, fun all => ?_⟩
  rw [ran, Option.map_some, accepted.mpr all] at exits
  exact absurd exits (by decide)

end

end CheckRepoSolvable

end Xios
