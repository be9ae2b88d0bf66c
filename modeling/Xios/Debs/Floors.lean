import Mathlib.Data.List.Lex
import Mathlib.Data.List.Sort
import Xios.Debs.Control
import Xios.Lib.Dict

/-! The floors of packages that `stamp-minos.py` computes from those of their dependencies. -/

namespace Xios

namespace StampMinos

/-- A package file with what is read of it: the control file, and the floor of its binaries. -/
structure Deb where
  fn : PyString
  text : PyString
  floor : Nat

abbrev Floors :=
  Dict (Prod.fst : PyString × Nat → PyString)

abbrev Deps :=
  Dict (Prod.fst : PyString × List PyString → PyString)

def floorOf (floor : Floors) (p : PyString) : Nat :=
  ((floor.get p).map Prod.snd).getD 0

def depsAt (deps : Deps) (p : PyString) : List PyString :=
  ((deps.get p).map Prod.snd).getD []

def keys (floor : Floors) : List PyString :=
  floor.entries.map Prod.fst

section

variable (u : PyText)

def Deb.pkg (deb : Deb) : PyString :=
  (packageOf u deb.text).getD deb.fn

def listing (files : List Deb) : List Deb :=
  (files.filter fun deb => (py ".deb").isSuffixOf deb.fn).insertionSort fun a b => a.fn ≤ b.fn

def own (debs : List Deb) : Floors :=
  debs.foldl (fun own deb => own.set (deb.pkg u, max (floorOf own (deb.pkg u)) deb.floor))
    (Dict.empty _)

def named (debs : List Deb) : Deps :=
  debs.foldl (fun deps deb => deps.set (deb.pkg u, depsOf u deb.text)) (Dict.empty _)

def addDeps (deps : Deps) (entry : PyString × List PyString) : Deps :=
  if (deps.get entry.1).isSome then
    deps.set (entry.1, uniq (depsAt deps entry.1 ++ entry.2))
  else deps

def deps (debs : List Deb) : Deps :=
  dependsAdd.foldl addDeps (named u debs)

def raiseFloor (deps : Deps) (st : Floors × Bool) (p : PyString) : Floors × Bool :=
  let c := (depsAt deps p).foldl
    (fun c t => if t ∈ keys st.1 ∧ floorOf st.1 t > c then floorOf st.1 t else c)
    (floorOf st.1 p)
  if c ≠ floorOf st.1 p then (st.1.set (p, c), true) else st

def sweepFloors (deps : Deps) (floor : Floors) : Floors × Bool :=
  (keys floor).foldl (raiseFloor deps) (floor, false)

def settle (deps : Deps) : Nat → Floors → Floors
  | 0, floor => floor
  | n + 1, floor =>
    let st := sweepFloors deps floor
    if st.2 = true then settle deps n st.1 else st.1

def floors (files : List Deb) : Floors :=
  let debs := listing files
  settle (deps u debs) 40 (own u debs)

end

end StampMinos

end Xios
