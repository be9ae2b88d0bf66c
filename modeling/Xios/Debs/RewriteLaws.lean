import Xios.Debs.ArLaws
import Xios.Debs.Rewrite

/-! Putting a changed control file into a package file changes one member of that. -/

namespace Xios

namespace StampMinos

section

variable {u : PyText} {utf8 : Utf8}

theorem digit_bytes_numeral {n : Nat} {d : UInt8} (member : d ∈ bytes (PyText.numeral n)) :
    48 ≤ d ∧ d ≤ 57 := by
  obtain ⟨c, inside, rfl⟩ := List.mem_map.mp member
  have digit := PyText.digit_of_mem_numeral inside
  rw [UInt8.le_iff_toNat_le, UInt8.le_iff_toNat_le, UInt8.toNat_ofNat']
  simp
  omega

theorem map_bytes_numeral (n : Nat) :
    (bytes (PyText.numeral n)).map UInt8.toNat = PyText.numeral n := by
  unfold bytes
  rw [List.map_map]
  calc
    _ = (PyText.numeral n).map id := by
      apply List.map_congr_left
      intro c member
      have digit := PyText.digit_of_mem_numeral member
      simp
      omega
    _ = PyText.numeral n := List.map_id _

theorem length_ljust {n : Nat} (fits : n < 10 ^ 10) :
    (ljust 10 (bytes (PyText.numeral n))).length = 10 := by
  have short := (PyText.length_numeral_le (by decide : 0 < 10)).mpr fits
  unfold ljust bytes
  rw [List.length_append, List.length_replicate, List.length_map]
  omega

variable {m : Member} {z : Bytes}

theorem take_hdrSize (length : m.hdr.length = 60) (n : Nat) :
    (hdrSize m.hdr n).take 48 = m.hdr.take 48 := by
  unfold hdrSize
  rw [List.append_assoc, List.take_left' (by rw [List.length_take, length]; rfl)]

theorem drop_hdrSize (length : m.hdr.length = 60) {n : Nat} (fits : n < 10 ^ 10) :
    (hdrSize m.hdr n).drop 58 = m.hdr.drop 58 := by
  unfold hdrSize
  rw [List.drop_left']
  rw [List.length_append, List.length_take, length, length_ljust fits]
  rfl

theorem length_hdrSize (length : m.hdr.length = 60) {n : Nat} (fits : n < 10 ^ 10) :
    (hdrSize m.hdr n).length = 60 := by
  unfold hdrSize
  rw [List.length_append, List.length_append, List.length_take, List.length_drop, length,
    length_ljust fits]
  rfl

theorem sizeField_hdrSize (length : m.hdr.length = 60) {n : Nat} (fits : n < 10 ^ 10) :
    sizeField (hdrSize m.hdr n) = ljust 10 (bytes (PyText.numeral n)) := by
  have before : (m.hdr.take 48).length = 48 := by
    rw [List.length_take, length]
    rfl
  unfold sizeField hdrSize
  rw [List.take_left' (by rw [List.length_append, before, length_ljust fits]),
    List.drop_left' before]

theorem Member.WellFormed.withBody (wellFormed : m.WellFormed u utf8) (fits : z.length < 10 ^ 10) :
    (StampMinos.withBody m z).WellFormed u utf8 where
  length := length_hdrSize wellFormed.length fits
  named := by
    have same : (hdrSize m.hdr z.length).take 16 = m.hdr.take 16 := by
      have before := congrArg (List.take 16) (take_hdrSize wellFormed.length z.length)
      rwa [List.take_take, List.take_take] at before
    have named := wellFormed.named
    unfold memberName at named ⊢
    unfold StampMinos.withBody
    rwa [same]
  sized := by
    refine ⟨_, ?_, fun d => digit_bytes_numeral, ?_, sizeField_hdrSize wellFormed.length fits⟩
    · unfold bytes
      rw [Ne, List.map_eq_nil_iff]
      exact PyText.numeral_ne_nil _
    · rw [map_bytes_numeral, PyText.decimalValue_numeral]
      rfl

end

section

variable (u : PyText) (utf8 : Utf8) (tar : Tar)

/-- The members of a package file, with the control archive and what is in that. -/
structure IsDeb (raw : Bytes) (members : List Member) (ci : Nat) (cm : Member)
    (src : List TarMember) (text : PyString) : Prop where
  archive : IsArchive u utf8 raw members
  control : members.findIdx? (fun m => m.isPart "control.tar") = some ci
  member : members[ci]? = some cm
  readable : readControl utf8 tar cm = some (src, text)
  data : ∃ m ∈ members, m.isPart "data.tar"

/-- Some members in which another body stands at one place. -/
structure IsRewrite (members written : List Member) (ci : Nat) (cm : Member) (z : Bytes) :
    Prop where
  count : written.length = members.length
  others : ∀ i, i ≠ ci → written[i]? = members[i]?
  control : ∃ m, written[ci]? = some m ∧ m.name = cm.name ∧ m.body = z ∧
    -- The header tells the new size, and all else as before.
    memberSize u utf8 m.hdr = some z.length ∧ m.hdr.length = 60 ∧
    m.hdr.take 48 = cm.hdr.take 48 ∧ m.hdr.drop 58 = cm.hdr.drop 58

variable {u utf8 tar}

theorem find_set {members : List Member} {ci : Nat} {cm m : Member} {kind : String}
    (member : members[ci]? = some cm) (before : ¬cm.isPart kind) (after : ¬m.isPart kind) :
    (members.set ci m).find? (fun m => m.isPart kind) = members.find? fun m => m.isPart kind := by
  induction members generalizing ci with
  | nil => cases member
  | cons first members ih =>
    cases ci with
    | zero =>
      rw [List.getElem?_cons_zero, Option.some.injEq] at member
      subst member
      simp [before, after]
    | succ ci =>
      rw [List.getElem?_cons_succ] at member
      rw [List.set_cons_succ, List.find?_cons, List.find?_cons, ih member]

theorem not_isPart_data {m : Member} (control : m.isPart "control.tar") :
    ¬m.isPart "data.tar" := by
  intro data
  have first : ∀ {text : String}, m.isPart text →
      m.name.head? = (py text).head? ∨ py text = [] := by
    rintro text ⟨rest, whole⟩
    rw [← whole]
    cases py text <;> simp
  rcases first control with same | empty
  · rcases first data with same' | empty'
    · rw [same] at same'
      exact absurd same' (by decide)
    · exact absurd empty' (by decide)
  · exact absurd empty (by decide)

theorem exists_compressLike (tar : Tar) {name : PyString}
    (kind : suffix name ∈ [py "zst", py "xz", py "gz"]) (data : Bytes) :
    ∃ z, compressLike tar name data = some z := by
  unfold compressLike
  split
  · exact ⟨_, rfl⟩
  · split
    · exact ⟨_, rfl⟩
    · rename_i zst xz
      have gz : suffix name = py "gz" := by simpa [zst, xz] using kind
      rw [if_pos gz]
      exact ⟨_, rfl⟩

/-- The archive is the old one with the body of the control member replaced. -/
theorem rewrite_eq {raw : Bytes} {members : List Member} {ci : Nat} {cm : Member}
    {src : List TarMember} {text minos newctl : PyString} {z : Bytes}
    (deb : IsDeb u utf8 tar raw members ci cm src text)
    (edited : editControl u text (packageOf u text) minos = some newctl)
    (compressed : compressLike tar cm.name
      (tar.write (src.map (rewriteMember (utf8.encode newctl)))) = some z)
    (fits : z.length < 10 ^ 10) :
    rewrite u utf8 tar raw minos =
        some (arBuild (members.set ci (withBody cm z)), packageOf u text) ∧
      ∀ m ∈ members.set ci (withBody cm z), m.WellFormed u utf8 := by
  obtain ⟨wellFormed, rfl⟩ := isArchive_iff.mp deb.archive
  have control : cm.isPart "control.tar" := by
    obtain ⟨inside, holds, -⟩ := List.findIdx?_eq_some_iff_getElem.mp deb.control
    have same := deb.member
    rw [List.getElem?_eq_getElem inside, Option.some.injEq] at same
    rw [same] at holds
    simpa using holds
  have all : ∀ m ∈ members.set ci (withBody cm z), m.WellFormed u utf8 := by
    intro m member
    rcases List.mem_or_eq_of_mem_set member with old | rfl
    · exact wellFormed m old
    · exact (wellFormed cm (List.mem_of_getElem? deb.member)).withBody fits
  refine ⟨?_, all⟩
  -- Both data archives are the same member.
  have present : (members.find? fun m => m.isPart "data.tar").isSome := by
    rw [List.find?_isSome]
    simpa using deb.data
  obtain ⟨data, found⟩ := Option.isSome_iff_exists.mp present
  have found' : (members.set ci (withBody cm z)).find? (fun m => m.isPart "data.tar") =
      some data := by
    rw [find_set deb.member (not_isPart_data control)
      (not_isPart_data (show (withBody cm z).isPart "control.tar" from control)), found]
  have new : newControl u utf8 tar cm minos = some (z, packageOf u text) := by
    unfold newControl
    rw [deb.readable]
    dsimp only [Option.bind_eq_bind, Option.bind_some]
    rw [edited]
    dsimp only [Option.bind_some]
    rw [compressed]
    rfl
  unfold rewrite
  rw [arSplit_arBuild wellFormed]
  dsimp only [Option.bind_eq_bind, Option.bind_some]
  rw [deb.control]
  dsimp only [Option.bind_some]
  rw [deb.member]
  dsimp only [Option.bind_some]
  rw [new]
  dsimp only [Option.bind_some]
  rw [found, arSplit_arBuild all]
  dsimp only [Option.bind_some]
  rw [found']
  exact if_pos rfl

/--
An archive is built of what it is split into, and rewriting a package file changes one member.

The control archive has to be of a kind that is compressed again, to less than ten gigabytes.
-/
theorem deb_rewritten {raw : Bytes} {members : List Member}
    (archive : IsArchive u utf8 raw members) :
    (∃ split, arSplit u utf8 raw = some split ∧ arBuild split = raw) ∧
      ∀ (tar : Tar) (ci : Nat) (cm : Member) (src : List TarMember)
        (text minos newctl : PyString),
        IsDeb u utf8 tar raw members ci cm src text →
        editControl u text (packageOf u text) minos = some newctl →
        suffix cm.name ∈ [py "zst", py "xz", py "gz"] →
        ∃ z, compressLike tar cm.name
            (tar.write (src.map (rewriteMember (utf8.encode newctl)))) = some z ∧
          (z.length < 10 ^ 10 →
            ∃ new pkg written, rewrite u utf8 tar raw minos = some (new, pkg) ∧
              IsArchive u utf8 new written ∧ arSplit u utf8 new = some written ∧
              IsRewrite u utf8 members written ci cm z) := by
  obtain ⟨wellFormed, whole⟩ := isArchive_iff.mp archive
  constructor
  · refine ⟨members, ?_, whole.symm⟩
    rw [whole]
    exact arSplit_arBuild wellFormed
  · intro tar ci cm src text minos newctl deb edited kind
    obtain ⟨z, compressed⟩ := exists_compressLike tar kind
      (tar.write (src.map (rewriteMember (utf8.encode newctl))))
    refine ⟨z, compressed, fun fits => ?_⟩
    obtain ⟨rewritten, all⟩ := rewrite_eq deb edited compressed fits
    have inside : ci < members.length := (List.getElem?_eq_some_iff.mp deb.member).1
    have own := wellFormed cm (List.mem_of_getElem? deb.member)
    refine ⟨_, _, _, rewritten, isArchive_iff.mpr ⟨all, rfl⟩, arSplit_arBuild all, ?_⟩
    constructor
    · exact List.length_set
    · intro i other
      exact List.getElem?_set_ne (Ne.symm other)
    · refine ⟨_, List.getElem?_set_self inside, rfl, rfl, ?_, ?_, ?_, ?_⟩
      · exact (own.withBody fits).memberSize
      · exact (own.withBody fits).length
      · exact take_hdrSize own.length z.length
      · exact drop_hdrSize own.length fits

end

def asciiUtf8 : Utf8 where
  decode bytes := some (bytes.map UInt8.toNat)
  encode := bytes
  decode_ascii _ _ := rfl

def storedTar : Tar where
  read _ body := some [{ info := { name := py "./control" }, file := some body }]
  write src := (src.head?.bind TarMember.file).getD []
  zstd := id
  xz := id
  gzip := id

def member (name : String) (body : String) : Member where
  hdr := ljust 48 (bytes (py name)) ++ ljust 10 (bytes (PyText.numeral (py body).length)) ++
    bytes (py "`\n")
  name := py name
  body := bytes (py body)

def package (control : String) : List Member :=
  [member "debian-binary" "2.0\n", member control "Package: a\n", member "data.tar.gz" "data"]

theorem isDeb_package {control : String}
    (named : memberName .ascii asciiUtf8 (member control "Package: a\n").hdr = some (py control))
    (length : (member control "Package: a\n").hdr.length = 60)
    (size : sizeField (member control "Package: a\n").hdr = ljust 10 (bytes (py "11")))
    (place : (package control).findIdx? (fun m => m.isPart "control.tar") = some 1) :
    IsDeb .ascii asciiUtf8 storedTar (arBuild (package control)) (package control) 1
      (member control "Package: a\n")
      [{ info := { name := py "./control" }, file := some (bytes (py "Package: a\n")) }]
      (py "Package: a\n") where
  archive := by
    rw [isArchive_iff]
    refine ⟨?_, rfl⟩
    unfold package
    rw [List.forall_mem_cons, List.forall_mem_cons, List.forall_mem_singleton]
    refine ⟨⟨by decide +kernel, by decide +kernel, bytes (py "4"), ?_⟩,
      ⟨length, named, bytes (py "11"), ?_⟩,
      ⟨by decide +kernel, by decide +kernel, bytes (py "4"), ?_⟩⟩
    · decide +kernel
    · exact ⟨by decide, by decide +kernel, rfl, size⟩
    · decide +kernel
  control := place
  member := rfl
  readable := rfl
  data := ⟨member "data.tar.gz" "data", by unfold package; simp, by decide⟩

theorem deb_rewritten_package :
    (∃ split, arSplit .ascii asciiUtf8 (arBuild (package "control.tar.gz")) = some split ∧
        arBuild split = arBuild (package "control.tar.gz")) ∧
      ∃ new pkg written, rewrite .ascii asciiUtf8 storedTar
          (arBuild (package "control.tar.gz")) (py "16.5.0") = some (new, pkg) ∧
        IsArchive .ascii asciiUtf8 new written ∧ arSplit .ascii asciiUtf8 new = some written ∧
        IsRewrite .ascii asciiUtf8 (package "control.tar.gz") written 1
          (member "control.tar.gz" "Package: a\n")
          (bytes (py "Package: a\nMinimumOSVersion: 16.5.0\n")) := by
  have deb := @isDeb_package "control.tar.gz" (by decide +kernel) (by decide +kernel)
    (by decide +kernel) (by decide +kernel)
  obtain ⟨split, rewritten⟩ := deb_rewritten deb.archive
  refine ⟨split, ?_⟩
  obtain ⟨z, compressed, further⟩ := rewritten storedTar _ _ _ _ (py "16.5.0")
    (py "Package: a\nMinimumOSVersion: 16.5.0\n") deb (by decide +kernel) (by decide +kernel)
  obtain rfl : bytes (py "Package: a\nMinimumOSVersion: 16.5.0\n") = z :=
    Option.some.inj (Eq.trans (by decide +kernel) compressed)
  exact further (by decide +kernel)

/-- A package file with a control archive that is not compressed is not rewritten. -/
theorem not_deb_rewritten : ¬∀ (u : PyText) (utf8 : Utf8) (tar : Tar) (raw : Bytes)
    (members : List Member) (ci : Nat) (cm : Member) (src : List TarMember)
    (text minos newctl : PyString),
    IsDeb u utf8 tar raw members ci cm src text →
    editControl u text (packageOf u text) minos = some newctl →
    ∃ new pkg written z, rewrite u utf8 tar raw minos = some (new, pkg) ∧
      arSplit u utf8 new = some written ∧ IsRewrite u utf8 members written ci cm z := by
  intro claim
  have deb := @isDeb_package "control.tar" (by decide +kernel) (by decide +kernel)
    (by decide +kernel) (by decide +kernel)
  obtain ⟨new, pkg, -, -, rewritten, -⟩ := claim _ _ _ _ _ _ _ _ _ (py "16.5.0")
    (py "Package: a\nMinimumOSVersion: 16.5.0\n") deb (by decide +kernel)
  have fails : rewrite .ascii asciiUtf8 storedTar (arBuild (package "control.tar"))
      (py "16.5.0") = none := by
    decide +kernel
  rw [fails] at rewritten
  cases rewritten

end StampMinos

end Xios
