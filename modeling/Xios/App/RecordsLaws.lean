import Xios.App.Records

/-! However a stream arrives, an app has made of it what the complete records say. -/

namespace Xios

section

variable {records : List StreamRecord} {r : StreamRecord} {m : XiosMsg} {bytes : List UInt8}

theorem framesOf_append (records records' : List StreamRecord) :
    framesOf (records ++ records') = framesOf records ++ framesOf records' :=
  List.filterMap_append

theorem imageOf_append (records : List StreamRecord) (r : StreamRecord) :
    imageOf (records ++ [r]) = applyImage (imageOf records) r :=
  List.foldl_concat ..

theorem framesOf_concat_other (other : r.msg.type ≠ msgDirty) :
    framesOf (records ++ [r]) = framesOf records := by
  rw [framesOf_append]
  simp [framesOf, StreamRecord.frame, other]

theorem imageOf_concat_other (other : r.msg.type ≠ msgCursorImage) :
    imageOf (records ++ [r]) = imageOf records := by
  rw [imageOf_append, applyImage, if_pos other]

theorem finish_empty (magic : (XiosMsg.decode bytes).magic = msgMagic)
    (empty : (XiosMsg.decode bytes).length = 0#32) :
    recordReader.finish .header bytes = .more .header [⟨XiosMsg.decode bytes, []⟩] := by
  have none : ¬0 < (XiosMsg.decode bytes).length.toNat := by
    rw [empty]
    decide
  show (if (XiosMsg.decode bytes).magic ≠ msgMagic then _ else _) = _
  rw [if_neg fun wrong => wrong magic, dif_neg none]

theorem finish_nonempty (magic : (XiosMsg.decode bytes).magic = msgMagic)
    (carries : (XiosMsg.decode bytes).Carries) (nonempty : 0 < (XiosMsg.decode bytes).length.toNat) :
    recordReader.finish .header bytes = .more (.payload (XiosMsg.decode bytes) nonempty) [] := by
  show (if (XiosMsg.decode bytes).magic ≠ msgMagic then _ else _) = _
  rw [if_neg fun wrong => wrong magic, dif_pos nonempty, if_pos carries]

theorem finish_header_cases {phase : RecordPhase} {out : List StreamRecord}
    (went : recordReader.finish .header bytes = .more phase out) :
    (XiosMsg.decode bytes).magic = msgMagic ∧
      ((XiosMsg.decode bytes).length = 0#32 ∧ phase = .header ∧
          out = [⟨XiosMsg.decode bytes, []⟩] ∨
        ∃ nonempty, (XiosMsg.decode bytes).Carries ∧
          phase = .payload (XiosMsg.decode bytes) nonempty ∧ out = []) := by
  by_cases magic : (XiosMsg.decode bytes).magic = msgMagic
  · refine ⟨magic, ?_⟩
    by_cases empty : (XiosMsg.decode bytes).length = 0#32
    · rw [finish_empty magic empty] at went
      cases went
      exact .inl ⟨empty, rfl, rfl⟩
    · have nonempty : 0 < (XiosMsg.decode bytes).length.toNat := by
        rw [Nat.pos_iff_ne_zero]
        exact fun zero => empty (BitVec.eq_of_toNat_eq zero)
      by_cases carries : (XiosMsg.decode bytes).Carries
      · rw [finish_nonempty magic carries nonempty] at went
        cases went
        exact .inr ⟨nonempty, carries, rfl, rfl⟩
      · have stopped : recordReader.finish .header bytes = .stop [] := by
          show (if (XiosMsg.decode bytes).magic ≠ msgMagic then _ else _) = _
          rw [if_neg fun wrong => wrong magic, dif_pos nonempty, if_neg carries]
        rw [stopped] at went
        cases went
  · have stopped : recordReader.finish .header bytes = .stop [] := if_pos magic
    rw [stopped] at went
    cases went

end

namespace XSurfaceConn

variable {c c' : XSurfaceConn} {records : List StreamRecord} {phase : RecordPhase}
  {got bytes : List UInt8} {m : XiosMsg}

/-- Nothing but the surfaces and what is known of a pending one differs. -/
structure SameStream (c c' : XSurfaceConn) : Prop where
  image : c'.image = c.image
  fence : c'.fence = c.fence
  dirtySeq : c'.dirtySeq = c.dirtySeq
  current : c'.currentSurfaceId = c.currentSurfaceId
  skip : c'.skip = c.skip
  rxbuf : c'.rxbuf = c.rxbuf
  fenceRx : c'.fenceRx = c.fenceRx
  cursorRx : c'.cursorRx = c.cursorRx

theorem removeSurface_sameStream (c : XSurfaceConn) (id : BitVec 32) :
    SameStream c (c.removeSurface id) := by
  rw [removeSurface_eq]
  exact ⟨rfl, rfl, rfl, rfl, rfl, rfl, rfl, rfl⟩

theorem Reflects.of_same (reflects : c.Reflects records phase got) (same : SameStream c c') :
    c'.Reflects records phase got where
  image := same.image.trans reflects.image
  fence := same.fence.trans reflects.fence
  dirtySeq := same.dirtySeq.trans reflects.dirtySeq
  current := same.current.trans reflects.current
  skip := same.skip.trans reflects.skip
  receives := by
    have receives := reflects.receives
    unfold Receives at receives ⊢
    rw [same.rxbuf, same.fenceRx, same.cursorRx]
    exact receives

theorem Reflects.concat_other (reflects : c.Reflects records .header [])
    (frame : m.type ≠ msgDirty) (image : m.type ≠ msgCursorImage) :
    c.Reflects (records ++ [⟨m, []⟩]) .header [] where
  image := by
    rw [imageOf_concat_other image]
    exact reflects.image
  fence := by
    rw [framesOf_concat_other frame]
    exact reflects.fence
  dirtySeq := by
    rw [framesOf_concat_other frame]
    exact reflects.dirtySeq
  current := by
    rw [framesOf_concat_other frame]
    exact reflects.current
  skip := reflects.skip
  receives := reflects.receives

theorem Reflects.expect_token (reflects : c.Reflects records .header []) (dirty : m.type = msgDirty)
    (size : m.length = BitVec.ofNat 32 gpuFenceTokenSize) (value : (m.d ++ m.c : BitVec 64) ≠ 0#64)
    (nonempty : 0 < m.length.toNat) :
    Reflects
      { c with
        fenceRx := some
          { expected := m.length, surfaceId := m.windowId, dirtySeq := m.b ++ m.a
            value := m.d ++ m.c } } records (.payload m nonempty) [] where
  image := reflects.image
  fence := by
    have fence := reflects.fence
    simpa [overlay, dirty] using fence
  dirtySeq := reflects.dirtySeq
  current := reflects.current
  skip := reflects.skip
  receives := ⟨reflects.receives.1, nonempty,
    .inl ⟨dirty, size, value, reflects.receives.2.2.2, rfl⟩⟩

theorem Reflects.expect_pixels (reflects : c.Reflects records .header []) (draws : m.Draws) :
    Reflects
      { c with
        cursorRx := some
          { expected := m.length, width := m.a, height := m.b, hotX := m.c, hotY := m.d } }
      records (.payload m draws.2.2.2.2.2.2.2) [] where
  image := reflects.image
  fence := by
    have other : m.type ≠ msgDirty := by
      rw [draws.2.1]
      decide
    have fence := reflects.fence
    simpa [overlay, other] using fence
  dirtySeq := reflects.dirtySeq
  current := reflects.current
  skip := reflects.skip
  receives := ⟨reflects.receives.1, draws.2.2.2.2.2.2.2,
    .inr ⟨draws, reflects.receives.2.2.1, rfl⟩⟩

theorem Reflects.withdraw (reflects : c.Reflects records .header [])
    (type : m.type = msgCursorImage) (empty : m.length = 0#32) :
    Reflects
      { c with image := { c.image with width := 0#32, height := 0#32, seq := c.image.seq + 1#32 } }
      (records ++ [⟨m, []⟩]) .header [] := by
  have other : m.type ≠ msgDirty := by
    rw [type]
    decide
  refine ⟨?_, ?_, ?_, ?_, reflects.skip, reflects.receives⟩
  · rw [imageOf_append, ← reflects.image]
    simp [applyImage, type, empty]
  · rw [framesOf_concat_other other]
    exact reflects.fence
  · rw [framesOf_concat_other other]
    exact reflects.dirtySeq
  · rw [framesOf_concat_other other]
    exact reflects.current

/-- How taking in the bytes of some records can end. -/
def Received (c : XSurfaceConn) (records out : List StreamRecord) (phase : RecordPhase)
    (got : List UInt8) : DrainStep → Prop
  -- The loop goes on without a frame.
  | .loop c' => framesOf out = [] ∧ c'.Reflects (records ++ out) phase got
  -- The call returns with one frame.
  | .done c' dirty => dirty = true ∧ phase = .header ∧
      (∃ frame, framesOf out = [frame] ∧ frame.token.length = gpuFenceTokenSize ∧
        frame.value ≠ 0#64) ∧ c'.Reflects (records ++ out) phase got
  -- The connection is given up, and the image is what it was.
  | .fail _ => c.image = imageOf (records ++ out)

theorem Reflects.refuse (reflects : c.Reflects records .header [])
    (other : m.type ≠ msgCursorImage ∨ m.length ≠ 0#32) {out : List StreamRecord}
    (known : m.length = 0#32 ∧ out = [⟨m, []⟩] ∨ out = []) :
    c.image = imageOf (records ++ out) := by
  rcases known with ⟨empty, rfl⟩ | rfl
  · rcases other with type | nonempty
    · rw [imageOf_concat_other type]
      exact reflects.image
    · exact absurd empty nonempty
  · rw [List.append_nil]
    exact reflects.image

/-- After a header the app waits for exactly what its record carries. -/
theorem Reflects.acceptHeader (reflects : c.Reflects records .header [])
    {out : List StreamRecord} (magic : m.magic = msgMagic)
    (known : m.length = 0#32 ∧ phase = .header ∧ out = [⟨m, []⟩] ∨
      ∃ nonempty, m.Carries ∧ phase = .payload m nonempty ∧ out = []) :
    Received c records out phase [] (c.acceptHeader m) := by
  have refused (other : m.type ≠ msgCursorImage ∨ m.length ≠ 0#32) (reason : DrainFailure) :
      Received c records out phase [] (.fail reason) := by
    refine reflects.refuse other ?_
    rcases known with ⟨empty, -, rfl⟩ | ⟨-, -, -, rfl⟩
    · exact .inl ⟨empty, rfl⟩
    · exact .inr rfl
  -- A record of a kind that has no payload.
  have plain (frame : m.type ≠ msgDirty) (image : m.type ≠ msgCursorImage) :
      m.length = 0#32 ∧ phase = .header ∧ out = [⟨m, []⟩] := by
    rcases known with plain | ⟨-, carries, -⟩
    · exact plain
    · rcases carries with same | same
      · exact absurd same frame
      · exact absurd same image
  have other {c' : XSurfaceConn} (frame : m.type ≠ msgDirty) (image : m.type ≠ msgCursorImage)
      (same : SameStream c c') : Received c records out phase [] (.loop c') := by
    obtain ⟨-, rfl, rfl⟩ := plain frame image
    refine ⟨?_, (reflects.concat_other frame image).of_same same⟩
    simp [framesOf, StreamRecord.frame, frame]
  unfold XSurfaceConn.acceptHeader
  rw [if_neg fun wrong => wrong magic]
  by_cases dirty : m.type = msgDirty
  · -- A frame is announced.
    rw [if_pos dirty]
    have pixels : m.type ≠ msgCursorImage := by
      rw [dirty]
      decide
    dsimp only
    split
    · exact refused (.inl pixels) .protocol
    · rename_i valid
      simp only [not_or, not_not] at valid
      obtain ⟨-, size, value⟩ := valid
      rcases known with ⟨empty, -⟩ | ⟨nonempty, -, rfl, rfl⟩
      · rw [size] at empty
        exact absurd empty (by decide)
      · refine ⟨rfl, ?_⟩
        rw [List.append_nil]
        exact reflects.expect_token dirty size value nonempty
  rw [if_neg dirty]
  by_cases surface : m.type = msgSurface
  · rw [if_pos surface]
    have pixels : m.type ≠ msgCursorImage := by
      rw [surface]
      decide
    split
    · exact refused (.inl pixels) .protocol
    · exact other dirty pixels ⟨rfl, rfl, rfl, rfl, rfl, rfl, rfl, rfl⟩
  rw [if_neg surface]
  by_cases drop : m.type = msgSurfaceDrop
  · rw [if_pos drop]
    have pixels : m.type ≠ msgCursorImage := by
      rw [drop]
      decide
    split
    · exact refused (.inl pixels) .protocol
    split
    · exact other dirty pixels ⟨rfl, rfl, rfl, rfl, rfl, rfl, rfl, rfl⟩
    · exact other dirty pixels (removeSurface_sameStream c m.windowId)
  rw [if_neg drop]
  by_cases cursor : m.type = msgCursor
  · rw [if_pos cursor]
    have pixels : m.type ≠ msgCursorImage := by
      rw [cursor]
      decide
    obtain ⟨empty, -⟩ := plain dirty pixels
    rw [if_pos empty]
    exact other dirty pixels ⟨rfl, rfl, rfl, rfl, rfl, rfl, rfl, rfl⟩
  rw [if_neg cursor]
  by_cases pixels : m.type = msgCursorImage
  · rw [if_pos pixels]
    by_cases empty : m.length = 0#32
    · -- The image is withdrawn.
      rw [if_pos empty]
      rcases known with ⟨-, rfl, rfl⟩ | ⟨nonempty, -⟩
      · refine ⟨?_, reflects.withdraw pixels empty⟩
        simp [framesOf, StreamRecord.frame, dirty]
      · rw [empty] at nonempty
        exact absurd nonempty (by decide)
    · rw [if_neg empty]
      split
      · exact refused (.inr empty) .protocol
      · rename_i valid
        simp only [not_or, not_le, not_not] at valid
        obtain ⟨across, down, wide, high, size⟩ := valid
        rcases known with ⟨empty', -⟩ | ⟨nonempty, -, rfl, rfl⟩
        · exact absurd empty' empty
        · refine ⟨rfl, ?_⟩
          rw [List.append_nil]
          exact reflects.expect_pixels ⟨magic, pixels, across, down, not_lt.mp wide,
            not_lt.mp high, size, nonempty⟩
  rw [if_neg pixels]
  exact refused (.inl pixels) .protocol

theorem overlay_append (got bytes token : List UInt8) :
    (got ++ token.drop got.length).take got.length ++ bytes ++
        (got ++ token.drop got.length).drop (got.length + bytes.length) =
      (got ++ bytes) ++ token.drop (got ++ bytes).length := by
  rw [List.take_left, List.length_append, ← List.drop_drop, List.drop_left, List.drop_drop]

theorem length_token (whole : WholeFrames records) :
    (fenceOf (framesOf records).getLast?).token.length = gpuFenceTokenSize := by
  cases last : (framesOf records).getLast? with
  | none => exact List.length_replicate
  | some frame => exact (whole frame (List.mem_of_getLast? last)).1

theorem showFrame_eq (c : XSurfaceConn) (rx : FenceRx) :
    SameStream
      { c with
        fence :=
          { c.fence with tokenSize := rx.expected, dirtySeq := rx.dirtySeq, value := rx.value }
        dirtySeq := rx.dirtySeq, currentSurfaceId := rx.surfaceId, fenceRx := none }
      (c.showFrame rx) := by
  unfold showFrame
  dsimp only
  split
  · exact removeSurface_sameStream _ _
  · exact ⟨rfl, rfl, rfl, rfl, rfl, rfl, rfl, rfl⟩

section

variable {out : List StreamRecord} {phase' : RecordPhase} {got' : List UInt8}

theorem Reflects.receive_header (reflects : c.Reflects records .header got)
    (asked : bytes.length ≤ c.requested)
    (later : recordReader.parse .header (got ++ bytes) = ⟨out, some (phase', got'), []⟩) :
    Received c records out phase' got' (c.receive bytes) := by
  obtain ⟨same, short, fence, cursor⟩ := reflects.receives
  subst same
  have skip := reflects.skip
  have still : ¬(0 : Int) < 0 := lt_irrefl 0
  simp only [requested, fence, cursor, skip, if_neg still] at asked
  have received : c.receive bytes =
      if (c.rxbuf ++ bytes).length < msgSize then .loop { c with rxbuf := c.rxbuf ++ bytes }
      else XSurfaceConn.acceptHeader { c with rxbuf := [] } (XiosMsg.decode (c.rxbuf ++ bytes)) := by
    simp only [XSurfaceConn.receive, fence, cursor, skip, if_neg still]
  rw [received]
  split
  · -- The header is not complete.
    rename_i partly
    rw [recordReader.parse_short (show _ < recordReader.want .header from partly)] at later
    cases later
    refine ⟨rfl, ?_⟩
    rw [List.append_nil]
    exact ⟨reflects.image, reflects.fence, reflects.dirtySeq, reflects.current, skip, rfl, partly,
      fence, cursor⟩
  · rename_i complete
    have full : (c.rxbuf ++ bytes).length = recordReader.want .header := by
      show (c.rxbuf ++ bytes).length = msgSize
      rw [List.length_append] at complete ⊢
      omega
    cases decided : recordReader.finish .header (c.rxbuf ++ bytes) with
    | stop delivered =>
      have stopped := recordReader.parse_stop full decided []
      rw [List.append_nil] at stopped
      rw [stopped] at later
      cases later
    | more next delivered =>
      have went := recordReader.parse_more full decided []
      rw [List.append_nil, recordReader.parse_nil] at went
      rw [went] at later
      simp only [Reader.Outcome.prepend, List.append_nil, Reader.Outcome.mk.injEq,
        Option.some.injEq, Prod.mk.injEq, and_true] at later
      obtain ⟨rfl, rfl, rfl⟩ := later
      obtain ⟨magic, known⟩ := finish_header_cases decided
      have cleared : Reflects { c with rxbuf := [] } records .header [] :=
        ⟨reflects.image, reflects.fence, reflects.dirtySeq, reflects.current, skip, rfl,
          Nat.succ_pos 31, fence, cursor⟩
      exact cleared.acceptHeader magic known

/-- Bytes of a token go to the fence, which keeps its old end until they are complete. -/
theorem Reflects.receive_token {nonempty : 0 < m.length.toNat}
    (reflects : c.Reflects records (.payload m nonempty) got) (whole : WholeFrames records)
    (dirty : m.type = msgDirty) (size : m.length = BitVec.ofNat 32 gpuFenceTokenSize)
    (value : (m.d ++ m.c : BitVec 64) ≠ 0#64) (cursor : c.cursorRx = none)
    (receiving : c.fenceRx = some
      { expected := m.length, got := got.length, surfaceId := m.windowId
        dirtySeq := m.b ++ m.a, value := m.d ++ m.c })
    (asked : bytes.length ≤ c.requested)
    (later : recordReader.parse (.payload m nonempty) (got ++ bytes) =
      ⟨out, some (phase', got'), []⟩) :
    Received c records out phase' got' (c.receive bytes) := by
  obtain ⟨empty, short, -⟩ := reflects.receives
  have number : m.length.toNat = gpuFenceTokenSize := by
    rw [size]
    rfl
  simp only [requested, receiving, number] at asked
  rw [number] at short
  have token : c.fence.token = got ++ (fenceOf (framesOf records).getLast?).token.drop got.length := by
    rw [reflects.fence]
    exact if_pos dirty
  have written : c.fence.token.take got.length ++ bytes ++
      c.fence.token.drop (got.length + bytes.length) =
        (got ++ bytes) ++
          (fenceOf (framesOf records).getLast?).token.drop (got ++ bytes).length := by
    rw [token]
    exact overlay_append _ _ _
  have received : c.receive bytes =
      if got.length + bytes.length < gpuFenceTokenSize then
        .loop { c with
          fence := { c.fence with
            token := (got ++ bytes) ++
              (fenceOf (framesOf records).getLast?).token.drop (got ++ bytes).length }
          fenceRx := some
            { expected := m.length, got := got.length + bytes.length, surfaceId := m.windowId
              dirtySeq := m.b ++ m.a, value := m.d ++ m.c } }
      else
        .done (showFrame
          { c with
            fence := { c.fence with
              token := (got ++ bytes) ++
                (fenceOf (framesOf records).getLast?).token.drop (got ++ bytes).length } }
          { expected := m.length, got := got.length + bytes.length, surfaceId := m.windowId
            dirtySeq := m.b ++ m.a, value := m.d ++ m.c }) true := by
    simp only [XSurfaceConn.receive, receiving, number, written]
  rw [received]
  split
  · -- The token is written over a little further.
    rename_i partly
    have partly' : (got ++ bytes).length < m.length.toNat := by
      rw [List.length_append, number]
      exact partly
    rw [recordReader.parse_short
      (show _ < recordReader.want (.payload m nonempty) from partly')] at later
    cases later
    refine ⟨rfl, ?_⟩
    rw [List.append_nil]
    refine ⟨reflects.image, ?_, reflects.dirtySeq, reflects.current, reflects.skip, empty, partly',
      .inl ⟨dirty, size, value, cursor, ?_⟩⟩
    · rw [reflects.fence]
      simp [overlay, dirty]
    · rw [List.length_append]
  · -- The whole token is there, and nothing is left of the last one.
    have full : (got ++ bytes).length = recordReader.want (.payload m nonempty) := by
      show (got ++ bytes).length = m.length.toNat
      rw [List.length_append, number]
      omega
    have went := recordReader.parse_more full rfl []
    rw [List.append_nil, recordReader.parse_nil] at went
    rw [went] at later
    cases later
    have covered : (fenceOf (framesOf records).getLast?).token.drop (got ++ bytes).length = [] := by
      apply List.drop_eq_nil_of_le
      rw [length_token whole, ← number]
      exact Nat.le_of_eq full.symm
    have frame : framesOf [(⟨m, got ++ bytes⟩ : StreamRecord)] =
        [{ surfaceId := m.windowId, dirtySeq := m.b ++ m.a, value := m.d ++ m.c
           token := got ++ bytes }] := by
      simp [framesOf, StreamRecord.frame, dirty]
    have other : m.type ≠ msgCursorImage := by
      rw [dirty]
      decide
    refine ⟨rfl, rfl, ⟨_, frame, full.trans number, value⟩, ?_⟩
    refine Reflects.of_same ?_ (showFrame_eq _ _)
    rw [covered, List.append_nil]
    refine ⟨?_, ?_, ?_, ?_, reflects.skip, empty, Nat.succ_pos 31, rfl, cursor⟩
    · simp only [List.append_nil]
      rw [imageOf_concat_other other]
      exact reflects.image
    · simp only [List.append_nil]
      rw [framesOf_append, frame, List.getLast?_concat]
      simp [fenceOf, overlay, size]
    · simp only [List.append_nil]
      rw [framesOf_append, frame, List.getLast?_concat]
      rfl
    · simp only [List.append_nil]
      rw [framesOf_append, frame, List.getLast?_concat]
      rfl

/-- Bytes of a picture are collected and shown only when they are complete. -/
theorem Reflects.receive_pixels {nonempty : 0 < m.length.toNat}
    (reflects : c.Reflects records (.payload m nonempty) got) (draws : m.Draws)
    (fence : c.fenceRx = none)
    (receiving : c.cursorRx = some
      { expected := m.length, pixels := got, width := m.a, height := m.b, hotX := m.c
        hotY := m.d })
    (asked : bytes.length ≤ c.requested)
    (later : recordReader.parse (.payload m nonempty) (got ++ bytes) =
      ⟨out, some (phase', got'), []⟩) :
    Received c records out phase' got' (c.receive bytes) := by
  obtain ⟨empty, short, -⟩ := reflects.receives
  have other : m.type ≠ msgDirty := by
    rw [draws.2.1]
    decide
  simp only [requested, fence, receiving] at asked
  have received : c.receive bytes =
      if (got ++ bytes).length < m.length.toNat then
        .loop { c with
          cursorRx := some
            { expected := m.length, pixels := got ++ bytes, width := m.a, height := m.b
              hotX := m.c, hotY := m.d } }
      else
        .loop { c with
          image :=
            { pixels := got ++ bytes, width := m.a, height := m.b, hotX := m.c, hotY := m.d
              seq := c.image.seq + 1#32 }
          cursorRx := none } := by
    simp only [XSurfaceConn.receive, fence, receiving]
  have unchanged : c.fence = fenceOf (framesOf records).getLast? := by
    have same := reflects.fence
    simpa [overlay, other] using same
  rw [received]
  split
  · rename_i partly
    rw [recordReader.parse_short
      (show _ < recordReader.want (.payload m nonempty) from partly)] at later
    cases later
    refine ⟨rfl, ?_⟩
    rw [List.append_nil]
    refine ⟨reflects.image, ?_, reflects.dirtySeq, reflects.current, reflects.skip, empty, partly,
      .inr ⟨draws, fence, rfl⟩⟩
    simpa [overlay, other] using unchanged
  · -- All pixels are there, and the image is replaced as a whole.
    rename_i complete
    have full : (got ++ bytes).length = recordReader.want (.payload m nonempty) := by
      show (got ++ bytes).length = m.length.toNat
      rw [List.length_append] at complete ⊢
      omega
    have went := recordReader.parse_more full rfl []
    rw [List.append_nil, recordReader.parse_nil] at went
    rw [went] at later
    cases later
    have large : m.length ≠ 0#32 := by
      intro zero
      rw [zero] at nonempty
      exact absurd nonempty (by decide)
    have frames : framesOf (records ++ [(⟨m, got ++ bytes⟩ : StreamRecord)]) = framesOf records :=
      framesOf_concat_other other
    refine ⟨?_, ?_, ?_, ?_, ?_, reflects.skip, empty, Nat.succ_pos 31, fence, rfl⟩
    · simp [framesOf, StreamRecord.frame, other]
    · simp only [List.append_nil]
      rw [imageOf_append, ← reflects.image]
      simp [applyImage, draws.2.1, large]
    · simp only [List.append_nil]
      rw [frames]
      exact unchanged
    · simp only [List.append_nil]
      rw [frames]
      exact reflects.dirtySeq
    · simp only [List.append_nil]
      rw [frames]
      exact reflects.current

theorem Reflects.receive (reflects : c.Reflects records phase got) (whole : WholeFrames records)
    (asked : bytes.length ≤ c.requested)
    (later : recordReader.parse phase (got ++ bytes) = ⟨out, some (phase', got'), []⟩) :
    Received c records out phase' got' (c.receive bytes) := by
  cases phase with
  | header => exact reflects.receive_header asked later
  | payload m nonempty =>
    rcases reflects.receives.2.2 with ⟨dirty, size, value, cursor, receiving⟩ | ⟨draws, fence, rx⟩
    · exact reflects.receive_token whole dirty size value cursor receiving asked later
    · exact reflects.receive_pixels draws fence rx asked later

end

end XSurfaceConn

/-- The protocol of a stream and its framing are at the same place. -/
inductive SamePlace : StreamPhase → RecordPhase → Prop where
  | header (v : StreamView) : SamePlace (.header v) .header
  | token (v : StreamView) (m : XiosMsg) (nonempty : 0 < m.length.toNat)
      (size : m.length.toNat = gpuFenceTokenSize) : SamePlace (.token v m) (.payload m nonempty)
  | pixels (v : StreamView) (m : XiosMsg) (valid : m.Draws) (nonempty : 0 < m.length.toNat) :
      SamePlace (.pixels v m valid) (.payload m nonempty)

theorem finish_of_stream {outputs : Nat} {v : StreamView} {bytes : List UInt8}
    {phase : StreamPhase} {out : List XiosMsg}
    (went : (streamReader outputs).finish (.header v) bytes = .more phase out) :
    ∃ phase' out', recordReader.finish .header bytes = .more phase' out' ∧
      SamePlace phase phase' := by
  have plain {v' : StreamView} (magic : (XiosMsg.decode bytes).magic = msgMagic)
      (empty : (XiosMsg.decode bytes).length = 0#32) :
      ∃ phase' out', recordReader.finish .header bytes = .more phase' out' ∧
        SamePlace (.header v') phase' :=
    ⟨_, _, finish_empty magic empty, .header v'⟩
  simp only [streamReader] at went
  split at went
  · -- A frame is announced.
    rename_i announces
    cases went
    obtain ⟨magic, dirty, -, size, -⟩ := announces
    have number : (XiosMsg.decode bytes).length.toNat = gpuFenceTokenSize := by
      rw [size]
      rfl
    have nonempty : 0 < (XiosMsg.decode bytes).length.toNat := by
      rw [number]
      decide
    exact ⟨_, _, finish_nonempty magic (.inl dirty) nonempty, .token v _ nonempty number⟩
  split at went
  · rename_i introduces
    cases went
    exact plain introduces.1 introduces.2.2.2.1
  split at went
  · rename_i takes
    cases went
    exact plain takes.1 takes.2.2.1
  split at went
  · rename_i points
    cases went
    exact plain points.1 points.2.2
  split at went
  · -- Pixels of the pointer follow.
    rename_i draws
    cases went
    have nonempty := draws.2.2.2.2.2.2.2
    exact ⟨_, _, finish_nonempty draws.1 (.inr draws.2.1) nonempty, .pixels v _ draws nonempty⟩
  · cases went

theorem waits_of_stream {outputs : Nat} {phase : StreamPhase} {phase' : RecordPhase}
    (same : SamePlace phase phase') {input : List UInt8}
    (waits : ((streamReader outputs).parse phase input).waiting ≠ none) :
    (recordReader.parse phase' input).waiting ≠ none := by
  -- The induction is on the input, frame by frame.
  induction size : input.length using Nat.strongRecOn generalizing phase phase' input with
  | ind n ih =>
    have want : (streamReader outputs).want phase = recordReader.want phase' := by
      cases same with
      | header => rfl
      | token v m nonempty number => exact number.symm
      | pixels => rfl
    have wanted := recordReader.positive phase'
    by_cases short : input.length < recordReader.want phase'
    · rw [recordReader.parse_short short]
      exact Option.some_ne_none _
    · have full : (input.take (recordReader.want phase')).length = recordReader.want phase' := by
        rw [List.length_take]
        omega
      have shorter : (input.drop (recordReader.want phase')).length < n := by
        rw [List.length_drop]
        omega
      have split := List.take_append_drop (recordReader.want phase') input
      generalize input.take (recordReader.want phase') = frame at full split
      generalize input.drop (recordReader.want phase') = rest at shorter split
      subst split
      cases decided : (streamReader outputs).finish phase frame with
      | stop out =>
        rw [(streamReader outputs).parse_stop (full.trans want.symm) decided] at waits
        exact absurd rfl waits
      | more next out =>
        rw [(streamReader outputs).parse_more (full.trans want.symm) decided] at waits
        obtain ⟨next', out', went, same'⟩ : ∃ next' out',
            recordReader.finish phase' frame = .more next' out' ∧ SamePlace next next' := by
          cases same with
          | header v => exact finish_of_stream decided
          | token v m nonempty =>
            cases decided
            exact ⟨_, _, rfl, .header _⟩
          | pixels v m valid nonempty =>
            cases decided
            exact ⟨_, _, rfl, .header _⟩
        rw [recordReader.parse_more full went]
        exact ih _ shorter same' waits rfl

theorem inRecords_of_stream {outputs : Nat} {wire : List UInt8} {introduced : List XiosMsg}
    {pending : StreamPhase × List UInt8}
    (whole : (streamReader outputs).parse (.header .opening) wire = ⟨introduced, some pending, []⟩) :
    InRecords wire := by
  apply waits_of_stream (.header .opening)
  rw [whole]
  exact Option.some_ne_none _

namespace AppStream

open XSurfaceConn

/-- The complete records among the bytes read so far. -/
def records (s : AppStream) : List StreamRecord :=
  (recordReader.parse .header s.consumed).out

/--
The app has made of the complete records what they say.

If it has given up the connection for another reason than its end, this is known of the pointer
image only.
-/
def Follows (s : AppStream) : Prop :=
  ∃ phase got, recordReader.parse .header s.consumed = ⟨s.records, some (phase, got), []⟩ ∧
    s.conn.image = imageOf s.records ∧
    (s.failed = none ∨ s.failed = some .closed →
      WholeFrames s.records ∧ s.conn.Reflects s.records phase got)

section

variable {geometry : Nat → SurfaceGeometry} {outputs : List Nat} {wire : List UInt8}
  {ports : List Nat} {s : AppStream}

theorem Follows.of_same (follows : s.Follows) (alive : s.failed = none) {s' : AppStream}
    (consumed : s'.consumed = s.consumed) (same : SameStream s.conn s'.conn) : s'.Follows := by
  obtain ⟨phase, got, parsed, image, reflects⟩ := follows
  have records : s'.records = s.records := by rw [AppStream.records, consumed]; rfl
  refine ⟨phase, got, ?_, ?_, ?_⟩
  · rw [consumed, records]
    exact parsed
  · rw [records]
    exact same.image.trans image
  · intro _
    obtain ⟨whole, reflects⟩ := reflects (.inl alive)
    rw [records]
    exact ⟨whole, reflects.of_same same⟩

theorem importPending_sameStream {c c' : XSurfaceConn} {m : XiosMsg} {result : PortResult}
    (step : importPending geometry c m result = .loop c') : SameStream c c' := by
  cases result with
  | timedOut => cases step
  | failed => cases step
  | arrived surface =>
    simp only [importPending] at step
    split at step
    · cases step
    · unfold XSurfaceConn.addSurface at step
      split at step
      · cases step
      · rename_i added
        split at added
        · cases added
        · split at added
          · cases step
            cases added
            exact ⟨rfl, rfl, rfl, rfl, rfl, rfl, rfl, rfl⟩
          · split at added
            · cases added
            · cases step
              cases added
              exact ⟨rfl, rfl, rfl, rfl, rfl, rfl, rfl, rfl⟩

theorem Follows.received (framed : InRecords wire) (follows : s.Follows) (alive : s.failed = none)
    {bytes : List UInt8} (asked : bytes.length ≤ s.conn.requested)
    (part : s.consumed ++ bytes <+: wire) :
    ∃ out phase got, WholeFrames s.records ∧
      recordReader.parse .header (s.consumed ++ bytes) =
        ⟨s.records ++ out, some (phase, got), []⟩ ∧
      Received s.conn s.records out phase got (s.conn.receive bytes) := by
  obtain ⟨phase, got, parsed, -, reflects⟩ := follows
  obtain ⟨whole, reflects⟩ := reflects (.inl alive)
  have extended := recordReader.parse_append_of_waiting parsed bytes
  -- The framing does not stop on a part of the stream.
  obtain ⟨pending, waits⟩ := Option.ne_none_iff_exists'.mp framed
  have complete : recordReader.parse .header wire =
      ⟨(recordReader.parse .header wire).out, some (pending.1, pending.2), []⟩ := by
    rw [← waits, ← recordReader.unread_of_waiting waits]
  obtain ⟨out', phase', got', parsed', -⟩ := recordReader.parse_of_prefix complete part
  rw [parsed'] at extended
  have later : recordReader.parse phase (got ++ bytes) =
      ⟨(recordReader.parse phase (got ++ bytes)).out, some (phase', got'), []⟩ := by
    have waiting := congrArg Reader.Outcome.waiting extended
    have unread := congrArg Reader.Outcome.unread extended
    simp only [Reader.Outcome.waiting_prepend] at waiting
    rw [waiting]
    exact congrArg (Reader.Outcome.mk _ _) unread.symm
  refine ⟨_, phase', got', whole, ?_, reflects.receive whole asked later⟩
  have delivered : out' = s.records ++ (recordReader.parse phase (got ++ bytes)).out :=
    congrArg Reader.Outcome.out extended
  rw [parsed', delivered]

theorem receive_ne_closed (c : XSurfaceConn) (bytes : List UInt8) :
    c.receive bytes ≠ .fail .closed := by
  intro closed
  unfold XSurfaceConn.receive at closed
  split at closed
  · dsimp only at closed
    split at closed <;> cases closed
  · dsimp only at closed
    split at closed <;> cases closed
  · split at closed
    · cases closed
    · dsimp only at closed
      split at closed
      · cases closed
      · unfold XSurfaceConn.acceptHeader at closed
        dsimp only at closed
        repeat' split at closed
        all_goals cases closed

theorem wholeFrames_append {records out : List StreamRecord} (whole : WholeFrames records)
    (added : WholeFrames out) : WholeFrames (records ++ out) := by
  intro frame member
  rw [framesOf_append, List.mem_append] at member
  rcases member with before | new
  · exact whole frame before
  · exact added frame new

/-- Every pass makes of the records what they say. -/
theorem Follows.next (framed : InRecords wire) (follows : s.Follows) {answer : DrainAnswer}
    (allowed : s.Allowed wire ports answer) : (s.next geometry answer).Follows := by
  obtain ⟨alive, asked⟩ := allowed
  cases waiting : s.conn.pendingSurface with
  | some m =>
    cases answer with
    | recv result => simp [waiting] at asked
    | port result =>
      have step : s.conn.drain geometry (.port result) = importPending geometry s.conn m result := by
        simp [drain, waiting]
      unfold AppStream.next
      simp only [step, answerBytes, List.append_nil]
      cases imported : importPending geometry s.conn m result with
      | loop c' => exact follows.of_same alive rfl (importPending_sameStream imported)
      | done c' dirty =>
        -- Only a port that has not arrived ends a call here.
        have same : c' = s.conn := by
          unfold importPending at imported
          split at imported
          · cases imported
            rfl
          · cases imported
          · split at imported
            · cases imported
            · split at imported <;> cases imported
        exact follows.of_same alive rfl (same ▸ ⟨rfl, rfl, rfl, rfl, rfl, rfl, rfl, rfl⟩)
      | fail reason => exact follows.of_same alive rfl ⟨rfl, rfl, rfl, rfl, rfl, rfl, rfl, rfl⟩
  | none =>
    cases answer with
    | port result => simp [waiting] at asked
    | recv result =>
      have same {s' : AppStream} (consumed : s'.consumed = s.consumed) (conn : s'.conn = s.conn) :
          s'.Follows :=
        follows.of_same alive consumed (conn ▸ ⟨rfl, rfl, rfl, rfl, rfl, rfl, rfl, rfl⟩)
      cases result with
      | eof =>
        refine same ?_ ?_
        · simp [AppStream.next, drain, waiting, answerBytes]
        · simp [AppStream.next, drain, waiting]
      | error =>
        refine same ?_ ?_
        · simp [AppStream.next, drain, waiting, answerBytes]
        · simp [AppStream.next, drain, waiting]
      | again =>
        refine same ?_ ?_
        · simp [AppStream.next, drain, waiting, answerBytes]
        · simp [AppStream.next, drain, waiting]
      | intr =>
        refine same ?_ ?_
        · simp [AppStream.next, drain, waiting, answerBytes]
        · simp [AppStream.next, drain, waiting]
      | data bytes =>
        simp only [waiting] at asked
        obtain ⟨out, phase, got, whole, parsed, received⟩ :=
          follows.received framed alive asked.2.1 asked.2.2
        have step : s.conn.drain geometry (.recv (.data bytes)) = s.conn.receive bytes := by
          simp [drain, waiting]
        have records {s' : AppStream} (consumed : s'.consumed = s.consumed ++ bytes) :
            s'.records = s.records ++ out := by
          rw [AppStream.records, consumed, parsed]
        unfold AppStream.next
        simp only [step, answerBytes]
        cases outcome : s.conn.receive bytes with
        | loop c' =>
          rw [outcome] at received
          refine ⟨phase, got, ?_, ?_, fun _ => ⟨?_, ?_⟩⟩
          · rw [records rfl]
            exact parsed
          · rw [records rfl]
            exact received.2.image
          · rw [records rfl]
            refine wholeFrames_append whole ?_
            intro frame member
            rw [received.1] at member
            cases member
          · rw [records rfl]
            exact received.2
        | done c' dirty =>
          rw [outcome] at received
          obtain ⟨-, -, ⟨frame, only, size, value⟩, reflects⟩ := received
          refine ⟨phase, got, ?_, ?_, fun _ => ⟨?_, ?_⟩⟩
          · rw [records rfl]
            exact parsed
          · rw [records rfl]
            exact reflects.image
          · rw [records rfl]
            refine wholeFrames_append whole ?_
            intro frame' member
            rw [only, List.mem_singleton] at member
            exact member ▸ ⟨size, value⟩
          · rw [records rfl]
            exact reflects
        | fail reason =>
          rw [outcome] at received
          refine ⟨phase, got, ?_, ?_, ?_⟩
          · rw [records rfl]
            exact parsed
          · rw [records rfl]
            exact received
          · -- A connection that is given up over its data has not just ended.
            rintro (open' | closed)
            · cases open'
            · cases closed
              exact absurd outcome (receive_ne_closed s.conn bytes)

theorem follows_of_run (framed : InRecords wire) {trace : List DrainAnswer}
    (run : (machine geometry outputs wire ports).Run trace s) : s.Follows := by
  refine run.invariant (fun _ s => s.Follows) ?_ ?_
  · intro s begun
    rw [begun]
    have nothing : recordReader.parse .header [] = ⟨[], some (.header, []), []⟩ :=
      recordReader.parse_nil .header
    refine ⟨.header, [], nothing, rfl, fun _ => ⟨?_, ?_⟩⟩
    · intro frame member
      cases member
    · exact ⟨rfl, rfl, rfl, rfl, rfl, rfl, Nat.succ_pos 31, rfl, rfl⟩
  · intro _ s answer follows allowed
    exact follows.next framed allowed

end

end AppStream

end Xios
