import Xios.App.RecordsLaws
import Xios.Surface.Agreement

/-! Every image of the pointer that an app shows is one that the server sent. -/

namespace Xios

/-- An image of the pointer. -/
structure Picture where
  -- Four bytes for every pixel.
  pixels : List UInt8
  -- Pixels across and down.
  width : BitVec 32
  height : BitVec 32
  hotX : BitVec 32
  hotY : BitVec 32
  deriving DecidableEq

/-- The image has a size, and all its pixels. -/
def Picture.Whole (p : Picture) : Prop :=
  0 < p.width.toInt ∧ 0 < p.height.toInt ∧ p.pixels.length = p.width.toNat * p.height.toNat * 4

def StreamRecord.picture (r : StreamRecord) : Option (Option Picture) :=
  if r.msg.type ≠ msgCursorImage then none
  else if r.msg.length = 0#32 then some none
  else
    some (some
      { pixels := r.payload, width := r.msg.a, height := r.msg.b, hotX := r.msg.c, hotY := r.msg.d })

def picturesOf (records : List StreamRecord) : List (Option Picture) :=
  records.filterMap StreamRecord.picture

def CursorImage.picture (image : CursorImage) : Picture :=
  { pixels := image.pixels, width := image.width, height := image.height, hotX := image.hotX
    hotY := image.hotY }

def StreamRecord.bytes (r : StreamRecord) : List UInt8 :=
  r.msg.encode ++ r.payload

/-- A stream can be read across the record. -/
structure StreamRecord.Framed (r : StreamRecord) : Prop where
  magic : r.msg.magic = msgMagic
  size : r.payload.length = r.msg.length.toNat
  carries : r.payload ≠ [] → r.msg.Carries

section

variable {r : StreamRecord}

theorem StreamRecord.Framed.finish (framed : r.Framed) :
    r.payload = [] ∧ recordReader.finish .header r.msg.encode = .more .header [r] ∨
      ∃ nonempty, recordReader.finish .header r.msg.encode = .more (.payload r.msg nonempty) [] := by
  have same := XiosMsg.decode_encode r.msg
  by_cases empty : r.payload = []
  · have zero : r.msg.length = 0#32 := by
      apply BitVec.eq_of_toNat_eq
      rw [← framed.size, empty]
      rfl
    refine .inl ⟨empty, ?_⟩
    rw [finish_empty (by rw [same, framed.magic]) (by rw [same, zero]), same, ← empty]
  · have nonempty : 0 < r.msg.length.toNat := by
      rw [← framed.size]
      exact List.length_pos_of_ne_nil empty
    refine .inr ⟨nonempty, ?_⟩
    have went := finish_nonempty
      (show (XiosMsg.decode r.msg.encode).magic = msgMagic by rw [same, framed.magic])
      (by rw [same]; exact framed.carries empty) (by rw [same]; exact nonempty)
    simpa only [same] using went

theorem StreamRecord.Framed.parse (framed : r.Framed) :
    recordReader.parse .header r.bytes = ⟨[r], some (.header, []), []⟩ := by
  have full : r.msg.encode.length = recordReader.want .header := r.msg.length_encode
  unfold bytes
  rcases framed.finish with ⟨empty, went⟩ | ⟨nonempty, went⟩
  · rw [recordReader.parse_more full went, empty, recordReader.parse_nil]
    rfl
  · have rest : r.payload.length = recordReader.want (.payload r.msg nonempty) := framed.size
    have delivered := recordReader.parse_more rest
      (show recordReader.finish (.payload r.msg nonempty) r.payload = .more .header [r] from rfl) []
    rw [List.append_nil, recordReader.parse_nil] at delivered
    rw [recordReader.parse_more full went, delivered]
    rfl

theorem StreamRecord.Framed.parse_part (framed : r.Framed) {n : Nat} (part : n < r.bytes.length) :
    ∃ pending, recordReader.parse .header (r.bytes.take n) = ⟨[], some pending, []⟩ := by
  have full : r.msg.encode.length = recordReader.want .header := r.msg.length_encode
  have size : r.bytes.length = msgSize + r.payload.length := by
    rw [bytes, List.length_append, r.msg.length_encode]
  by_cases short : n < msgSize
  · have shorter : (r.bytes.take n).length < recordReader.want .header := by
      rw [List.length_take]
      exact lt_of_le_of_lt (Nat.min_le_left ..) short
    exact ⟨_, recordReader.parse_short shorter⟩
  · -- The header is there, so that a payload is only partly there.
    have split : r.bytes.take n = r.msg.encode ++ r.payload.take (n - msgSize) := by
      rw [bytes, List.take_append, List.take_of_length_le, r.msg.length_encode]
      rw [r.msg.length_encode]
      omega
    rw [split]
    rcases framed.finish with ⟨empty, -⟩ | ⟨nonempty, went⟩
    · rw [empty, List.length_nil] at size
      omega
    · have shorter : (r.payload.take (n - msgSize)).length <
          recordReader.want (.payload r.msg nonempty) := by
        have want : recordReader.want (.payload r.msg nonempty) = r.payload.length :=
          framed.size.symm
        rw [want, List.length_take]
        omega
      rw [recordReader.parse_more full went, recordReader.parse_short shorter]
      exact ⟨_, rfl⟩

end

def Sent.whole? : Sent → Option StreamRecord
  | .record m payload => some ⟨m, payload⟩
  | .torn _ => none

/-- What was sent is a whole record of a known form. -/
def Sent.Framed (x : Sent) : Prop :=
  ∃ r, x.whole? = some r ∧ r.Framed

def picturesSent (log : List Sent) : List (Option Picture) :=
  picturesOf (log.filterMap Sent.whole?)

/-- Only what was written last may be torn. -/
def Legible (log : List Sent) : Prop :=
  (∀ x ∈ log, x.Framed) ∨
    ∃ r : StreamRecord, r.Framed ∧ ∃ n < r.bytes.length, ∃ earlier,
      log = .torn (r.bytes.take n) :: earlier ∧ ∀ x ∈ earlier, x.Framed

theorem Sent.Framed.bytes {x : Sent} (framed : x.Framed) :
    ∃ r, x.whole? = some r ∧ x.bytes = r.bytes ∧ r.Framed := by
  obtain ⟨r, same, framed⟩ := framed
  cases x with
  | record m payload =>
    cases same
    exact ⟨_, rfl, rfl, framed⟩
  | torn _ => cases same

theorem parse_wire_whole {log : List Sent} (framed : ∀ x ∈ log, x.Framed) :
    recordReader.parse .header (wire log) =
      ⟨(log.filterMap Sent.whole?).reverse, some (.header, []), []⟩ := by
  induction log with
  | nil => exact recordReader.parse_nil .header
  | cons x earlier ih =>
    obtain ⟨r, same, bytes, whole⟩ := (framed x List.mem_cons_self).bytes
    have before := ih fun y member => framed y (List.mem_cons_of_mem x member)
    rw [wire_cons, recordReader.parse_append_of_waiting before, List.nil_append, bytes,
      whole.parse, List.filterMap_cons, same]
    simp [Reader.Outcome.prepend]

theorem Legible.parse_wire {log : List Sent} (legible : Legible log) :
    ∃ pending, recordReader.parse .header (wire log) =
      ⟨(log.filterMap Sent.whole?).reverse, some pending, []⟩ := by
  rcases legible with framed | ⟨r, whole, n, part, earlier, rfl, framed⟩
  · exact ⟨_, parse_wire_whole framed⟩
  · obtain ⟨pending, parsed⟩ := whole.parse_part part
    refine ⟨pending, ?_⟩
    have before := parse_wire_whole framed
    rw [wire_cons, recordReader.parse_append_of_waiting before, List.nil_append]
    show (recordReader.parse .header (r.bytes.take n)).prepend _ = _
    rw [parsed, List.filterMap_cons]
    simp [Reader.Outcome.prepend, Sent.whole?]

namespace SurfaceServer

def Event.picture : Event → Option (Option Picture)
  | .cursorImage bgra width height hotX hotY _ =>
    if bgra.isSome ∧ 0 < width.toInt ∧ 0 < height.toInt then
      -- Images that are too large are not sent.
      if cursorImageMax < width.toNat ∨ cursorImageMax < height.toNat then none
      else
        some (some
          { pixels := (bgra.getD []).take (width.toNat * height.toNat * 4), width, height, hotX, hotY })
    else some none
  | _ => none

def pictures (trace : List Event) : List (Option Picture) :=
  trace.filterMap Event.picture

/-- No two clients share a connection. -/
def Apart (s : SurfaceServer) : Prop :=
  ∀ i j c c', s.clients i = some c → s.clients j = some c' → c.conn = c'.conn → i = j

/-- Every client is sent some images, unless it is disconnected meanwhile. -/
structure Delivers (sent : Fin maxClients → List (Option Picture)) (s s' : SurfaceServer) :
    Prop where
  conns : s'.conns = s.conns
  absent : ∀ i, s.clients i = none → s'.clients i = none
  -- A client that stays is sent all of them, and other records that can be read.
  present : ∀ i c, s.clients i = some c →
    s'.clients i = some c ∧ (∃ new, s'.log c.conn = new ++ s.log c.conn ∧
        (∀ x ∈ new, x.Framed) ∧ picturesSent new = sent i) ∨
      s'.clients i = none ∧ ∃ new, s'.log c.conn = new ++ s.log c.conn ∧ Legible new ∧
        picturesSent new <:+ sent i
  -- Nothing is written to anybody else.
  others : ∀ conn, (∀ i c, s.clients i = some c → c.conn ≠ conn) → s'.log conn = s.log conn

section

variable {s s' s'' : SurfaceServer} {sent sent' : Fin maxClients → List (Option Picture)}
  {i : Fin maxClients} {c : AppClient}

theorem picturesSent_append (new log : List Sent) :
    picturesSent (new ++ log) = picturesSent new ++ picturesSent log := by
  simp [picturesSent, picturesOf]

theorem legible_append {new log : List Sent} (legible : Legible new)
    (framed : ∀ x ∈ log, x.Framed) : Legible (new ++ log) := by
  rcases legible with whole | ⟨r, whole, n, part, earlier, rfl, before⟩
  · exact .inl fun x member => (List.mem_append.mp member).elim (whole x) (framed x)
  · exact .inr ⟨r, whole, n, part, earlier ++ log, rfl, fun x member =>
      (List.mem_append.mp member).elim (before x) (framed x)⟩

theorem Delivers.of_eq (clients : s'.clients = s.clients) (conns : s'.conns = s.conns)
    (log : s'.log = s.log) : Delivers (fun _ => []) s s' where
  conns := conns
  absent i gone := by rw [clients, gone]
  present i c client := by
    refine .inl ⟨by rw [clients, client], [], by rw [log]; rfl, ?_, rfl⟩
    intro x member
    cases member
  others conn _ := by rw [log]

theorem Delivers.client_before (delivers : Delivers sent s s') {i : Fin maxClients} {c : AppClient}
    (client : s'.clients i = some c) : s.clients i = some c := by
  cases before : s.clients i with
  | none =>
    rw [delivers.absent i before] at client
    cases client
  | some c' =>
    rcases delivers.present i c' before with ⟨same, -⟩ | ⟨gone, -⟩
    · exact same.symm.trans client
    · rw [gone] at client
      cases client

theorem Delivers.apart (delivers : Delivers sent s s') (apart : s.Apart) : s'.Apart :=
  fun i j c c' client client' => apart i j c c' (delivers.client_before client)
    (delivers.client_before client')

theorem Delivers.trans (first : Delivers sent s s') (apart : s.Apart)
    (second : Delivers sent' s' s'') : Delivers (fun i => sent' i ++ sent i) s s'' where
  conns := second.conns.trans first.conns
  absent i gone := second.absent i (first.absent i gone)
  present i c client := by
    rcases first.present i c client with ⟨client', new, log, framed, all⟩ | ⟨gone, new, log, legible, part⟩
    · rcases second.present i c client' with
        ⟨client'', new', log', framed', all'⟩ | ⟨gone, new', log', legible, part⟩
      · refine .inl ⟨client'', new' ++ new, ?_, ?_, ?_⟩
        · rw [log', log, List.append_assoc]
        · exact fun x member => (List.mem_append.mp member).elim (framed' x) (framed x)
        · rw [picturesSent_append, all, all']
      · refine .inr ⟨gone, new' ++ new, ?_, legible_append legible framed, ?_⟩
        · rw [log', log, List.append_assoc]
        · rw [picturesSent_append, all]
          obtain ⟨rest, split⟩ := part
          exact ⟨rest, by rw [← split, List.append_assoc]⟩
    · -- Its connection is nobody else's, so that nothing more is written to it.
      have quiet : s''.log c.conn = s'.log c.conn := by
        refine second.others c.conn fun j c' client' same => ?_
        have before := first.client_before client'
        obtain rfl := apart j i c' c before client same
        rw [gone] at client'
        cases client'
      exact .inr ⟨second.absent i gone, new, quiet.trans log, legible,
        part.trans (List.suffix_append ..)⟩
  others conn free := by
    rw [second.others conn fun i c client => free i c (first.client_before client)]
    exact first.others conn free

/-- A step changes nothing but what concerns one client. -/
structure AtPlace (i : Fin maxClients) (c : AppClient) (s s' : SurfaceServer) : Prop where
  conns : s'.conns = s.conns
  clients : ∀ j, j ≠ i → s'.clients j = s.clients j
  log : ∀ conn, conn ≠ c.conn → s'.log conn = s.log conn

theorem Delivers.of_place (place : AtPlace i c s s') (apart : s.Apart)
    (client : s.clients i = some c)
    (here : s'.clients i = some c ∧ (∃ new, s'.log c.conn = new ++ s.log c.conn ∧
        (∀ x ∈ new, x.Framed) ∧ picturesSent new = sent i) ∨
      s'.clients i = none ∧ ∃ new, s'.log c.conn = new ++ s.log c.conn ∧ Legible new ∧
        picturesSent new <:+ sent i) (elsewhere : ∀ j, j ≠ i → sent j = []) :
    Delivers sent s s' where
  conns := place.conns
  absent j gone := by
    by_cases same : j = i
    · rw [same, client] at gone
      cases gone
    · rw [place.clients j same, gone]
  present j c' client' := by
    by_cases same : j = i
    · subst same
      rw [client] at client'
      cases client'
      exact here
    · have other : c'.conn ≠ c.conn := fun equal => same (apart j i c' c client' client equal)
      refine .inl ⟨by rw [place.clients j same, client'], [], place.log _ other, ?_, ?_⟩
      · intro x member
        cases member
      · rw [elsewhere j same]
        rfl
  others conn free := place.log conn (free i c client).symm

theorem atPlace_write (i : Fin maxClients) (c : AppClient) (s : SurfaceServer) (m : XiosMsg)
    (payload : List UInt8) (result : SendResult) : AtPlace i c s (s.write c.conn m payload result) where
  conns := write_conns ..
  clients j _ := by rw [write_clients]
  log conn other := log_write_other m payload result other

theorem AtPlace.dropClient (place : AtPlace i c s s') : AtPlace i c s (s'.dropClient i) where
  conns := by rw [dropClient_conns, place.conns]
  clients j other := by
    rw [← place.clients j other]
    ext c'
    rw [dropClient_clients]
    exact ⟨And.right, fun client => ⟨other, client⟩⟩
  log conn other := by rw [dropClient_log, place.log conn other]

theorem dropClient_gone (s : SurfaceServer) (i : Fin maxClients) :
    (s.dropClient i).clients i = none := by
  cases gone : (s.dropClient i).clients i with
  | none => rfl
  | some c => exact absurd rfl (dropClient_clients.mp gone).1

variable {m : XiosMsg} {payload : List UInt8}

theorem log_write (framed : StreamRecord.Framed ⟨m, payload⟩) (s : SurfaceServer) (conn : Nat)
    (result : SendResult) :
    ∃ new, (s.write conn m payload result).log conn = new ++ s.log conn ∧ Legible new ∧
      picturesSent new <:+ (StreamRecord.picture ⟨m, payload⟩).toList ∧
      (result = .sent → (∀ x ∈ new, x.Framed) ∧
        picturesSent new = (StreamRecord.picture ⟨m, payload⟩).toList) ∧
      (result = .wouldBlock → new = []) := by
  cases result with
  | sent =>
    have whole : ∀ x ∈ [Sent.record m payload], x.Framed := by
      intro x member
      rw [List.mem_singleton.mp member]
      exact ⟨_, rfl, framed⟩
    have pictures : picturesSent [Sent.record m payload] =
        (StreamRecord.picture ⟨m, payload⟩).toList := by
      simp only [picturesSent, picturesOf, Sent.whole?, List.filterMap_cons, List.filterMap_nil]
      cases StreamRecord.picture ⟨m, payload⟩ <;> rfl
    refine ⟨[.record m payload], by simp [SurfaceServer.write], .inl whole, ?_, ?_, fun off => by cases off⟩
    · rw [pictures]
    · exact fun _ => ⟨whole, pictures⟩
  | wouldBlock =>
    refine ⟨[], rfl, .inl (List.forall_mem_nil _), List.nil_suffix, (fun off => by cases off),
      fun _ => rfl⟩
  | failed written =>
    refine ⟨[.torn ((m.encode ++ payload).dropLast.take written)], by simp [SurfaceServer.write],
      .inr ⟨⟨m, payload⟩, framed, min written ((m.encode ++ payload).length - 1), ?_, [], ?_,
        List.forall_mem_nil _⟩,
      List.nil_suffix, (fun off => by cases off), fun off => by cases off⟩
    · have size := m.length_encode
      simp only [StreamRecord.bytes, List.length_append, size]
      have positive : 0 < msgSize := by decide
      omega
    · rw [List.dropLast_eq_take, List.take_take]
      rfl

theorem Delivers.congr (delivers : Delivers sent s s')
    (same : ∀ i c, s.clients i = some c → sent' i = sent i) : Delivers sent' s s' where
  conns := delivers.conns
  absent := delivers.absent
  present i c client := by
    rw [same i c client]
    exact delivers.present i c client
  others := delivers.others

theorem Delivers.same (delivers : Delivers sent s s') (clients : s''.clients = s'.clients)
    (conns : s''.conns = s'.conns) (log : s''.log = s'.log) : Delivers sent s s'' := by
  obtain ⟨before, absent, present, others⟩ := delivers
  refine ⟨?_, ?_, ?_, ?_⟩
  · rwa [conns]
  · rwa [clients]
  · rwa [clients, log]
  · rwa [log]

theorem dropClient_congr (clients : s'.clients = s.clients) (i : Fin maxClients) :
    (s'.dropClient i).clients = (s.dropClient i).clients := by
  funext j
  ext c
  rw [dropClient_clients, dropClient_clients, clients]

theorem delivers_write_drop (apart : s.Apart) (client : s.clients i = some c)
    (framed : StreamRecord.Framed ⟨m, payload⟩) (result : SendResult) :
    Delivers (fun j => if j = i then (StreamRecord.picture ⟨m, payload⟩).toList else []) s
      ((s.write c.conn m payload result).dropClient i) := by
  obtain ⟨new, log, legible, part, -⟩ := log_write framed s c.conn result
  refine .of_place (atPlace_write i c s m payload result).dropClient apart client (.inr ?_)
    fun j other => if_neg other
  refine ⟨dropClient_gone _ i, new, ?_, legible, ?_⟩
  · rw [dropClient_log, log]
  · rwa [if_pos rfl]

theorem delivers_sendRecord (apart : s.Apart) (client : s.clients i = some c)
    (framed : StreamRecord.Framed ⟨m, payload⟩) {result : SendResult}
    (heard : result = .wouldBlock → StreamRecord.picture ⟨m, payload⟩ = none) :
    Delivers (fun j => if j = i then (StreamRecord.picture ⟨m, payload⟩).toList else []) s
      (s.sendRecord i c m payload result) := by
  obtain ⟨new, log, legible, part, whole, nothing⟩ := log_write framed s c.conn result
  have kept : (∀ x ∈ new, x.Framed) → picturesSent new =
      (StreamRecord.picture ⟨m, payload⟩).toList →
      Delivers (fun j => if j = i then (StreamRecord.picture ⟨m, payload⟩).toList else []) s
        (s.write c.conn m payload result) := by
    intro framed' all
    refine .of_place (atPlace_write i c s m payload result) apart client (.inl ?_)
      fun j other => if_neg other
    refine ⟨by rw [write_clients, client], new, log, framed', ?_⟩
    rw [all, if_pos rfl]
  cases result with
  | sent => exact kept (whole rfl).1 (whole rfl).2
  | wouldBlock =>
    rw [nothing rfl] at kept
    refine kept nofun ?_
    rw [heard rfl]
    rfl
  | failed written => exact delivers_write_drop apart client framed _

variable {l : List (Option Picture)}

theorem delivers_foldl {β : Type*} (view : β → SurfaceServer) {step : β → Fin maxClients → β}
    (one : ∀ b i, (view b).Apart →
      Delivers (fun j => if j = i then l else []) (view b) (view (step b i)))
    {places : List (Fin maxClients)} (different : places.Nodup) (b : β) (apart : (view b).Apart) :
    Delivers (fun j => if j ∈ places then l else []) (view b) (view (places.foldl step b)) := by
  induction places generalizing b with
  | nil => exact (Delivers.of_eq rfl rfl rfl).congr fun j _ _ => if_neg List.not_mem_nil
  | cons i rest ih =>
    have first := one b i apart
    have later := ih different.of_cons (step b i) (first.apart apart)
    refine (first.trans apart later).congr fun j _ _ => ?_
    -- Each client has its turn once.
    by_cases here : j = i
    · subst here
      rw [if_pos rfl, if_neg (List.nodup_cons.mp different).1, if_pos List.mem_cons_self]
      rfl
    · simp [here]

theorem delivers_all {β : Type*} (view : β → SurfaceServer) (step : β → Fin maxClients → β)
    (one : ∀ b i, (view b).Apart →
      Delivers (fun j => if j = i then l else []) (view b) (view (step b i))) (b : β)
    (apart : (view b).Apart) :
    Delivers (fun _ => l) (view b) (view ((List.finRange maxClients).foldl step b)) :=
  (delivers_foldl view one (List.nodup_finRange _) b apart).congr fun j _ _ =>
    (if_pos (List.mem_finRange j)).symm

theorem delivers_nobody (absent : s.clients i = none) (l : List (Option Picture)) :
    Delivers (fun j => if j = i then l else []) s s := by
  refine (Delivers.of_eq rfl rfl rfl).congr fun j c client => if_neg ?_
  rintro rfl
  rw [absent] at client
  cases client

theorem delivers_dropClient (apart : s.Apart) (i : Fin maxClients) :
    Delivers (fun _ => []) s (s.dropClient i) := by
  cases client : s.clients i with
  | none =>
    have same : s.dropClient i = s := by simp [SurfaceServer.dropClient, client]
    rw [same]
    exact .of_eq rfl rfl rfl
  | some c =>
    have place : AtPlace i c s s := ⟨rfl, fun _ _ => rfl, fun _ _ => rfl⟩
    refine .of_place place.dropClient apart client (.inr ?_) fun _ _ => rfl
    exact ⟨dropClient_gone s i, [], by rw [dropClient_log]; rfl, .inl (List.forall_mem_nil _), List.nil_suffix⟩

theorem framed_empty (magic : m.magic = msgMagic) (empty : m.length = 0#32) :
    StreamRecord.Framed ⟨m, []⟩ :=
  ⟨magic, by rw [empty]; rfl, fun some_ => absurd rfl some_⟩

theorem picture_of_ne (other : m.type ≠ msgCursorImage) (payload : List UInt8) :
    StreamRecord.picture ⟨m, payload⟩ = none :=
  if_pos other

theorem introduce_spec (client : s.clients i = some c) (stream : Option (Fin maxStreamSurfaces))
    (plan : SendPlan) :
    ∃ before : SurfaceServer, (s.introduce i stream plan).2.clients = before.clients ∧
      (s.introduce i stream plan).2.conns = before.conns ∧
      (s.introduce i stream plan).2.log = before.log ∧
      (before = s ∨ ∃ e, before = s.write c.conn (surfaceMsg e) [] plan.surface ∧
        ((s.introduce i stream plan).1 = true → plan.surface = .sent)) := by
  cases stream with
  | none => exact ⟨s, rfl, rfl, rfl, .inl rfl⟩
  | some k =>
    simp only [introduce, sendStreamSurface, client]
    cases s.streams k with
    | none => exact ⟨s, rfl, rfl, rfl, .inl rfl⟩
    | some e =>
      dsimp only
      split
      · exact ⟨s, rfl, rfl, rfl, .inl rfl⟩
      split
      · exact ⟨s, rfl, rfl, rfl, .inl rfl⟩
      split
      · exact ⟨s, rfl, rfl, rfl, .inl rfl⟩
      · refine ⟨s.write c.conn (surfaceMsg e) [] plan.surface, ?_, ?_, ?_, .inr ⟨e, rfl, ?_⟩⟩
        · split <;> simp [setStream, deliverPort]
        · split <;> simp [setStream, deliverPort]
        · split <;> cases plan.surface <;> rfl
        · split
          · rename_i sent
            exact fun _ => sent
          · exact fun worked => absurd worked (by simp)

theorem framed_surfaceMsg (e : StreamSurface) : StreamRecord.Framed ⟨surfaceMsg e, []⟩ :=
  framed_empty rfl rfl

theorem ite_nil (i : Fin maxClients) :
    (fun j : Fin maxClients => if j = i then ([] : List (Option Picture)) else []) = fun _ => [] := by
  funext j
  exact ite_self _

theorem delivers_notifyClient {told : BitVec 32 × SurfaceServer} (apart : told.2.Apart)
    {token : List UInt8} (framed : StreamRecord.Framed ⟨m, token⟩)
    (frame : m.type ≠ msgCursorImage) (id : BitVec 32) (stream : Option (Fin maxStreamSurfaces))
    (plan : Fin maxClients → SendPlan) (i : Fin maxClients) :
    Delivers (fun _ => []) told.2 (notifyClient id stream m token plan told i).2 := by
  obtain ⟨delivered, s⟩ := told
  have quiet : Delivers (fun _ => []) s s := .of_eq rfl rfl rfl
  unfold notifyClient
  dsimp only at apart ⊢
  cases client : s.clients i with
  | none => exact quiet
  | some c =>
    dsimp only
    split
    · exact quiet
    obtain ⟨before, clients, conns, log, written⟩ := introduce_spec client stream (plan i)
    have like := fun e => picture_of_ne (m := surfaceMsg e)
      (show msgSurface ≠ msgCursorImage by decide) []
    split
    · -- The client is disconnected, whatever was written to it.
      have dropped : Delivers (fun _ => []) s (before.dropClient i) := by
        rcases written with rfl | ⟨e, rfl, -⟩
        · exact delivers_dropClient apart i
        · have drops := delivers_write_drop apart client (framed_surfaceMsg e) (plan i).surface
          rwa [like e, Option.toList_none, ite_nil] at drops
      refine dropped.same (dropClient_congr clients i) ?_ ?_
      · rw [dropClient_conns, dropClient_conns, conns]
      · rw [dropClient_log, dropClient_log, log]
    · rename_i worked
      have introduced : Delivers (fun _ => []) s before := by
        rcases written with rfl | ⟨e, rfl, sent⟩
        · exact quiet
        · rw [sent (by simpa using worked)]
          have sends := delivers_sendRecord apart client (framed_surfaceMsg e)
            (show SendResult.sent = .wouldBlock → _ from nofun)
          rwa [like e, Option.toList_none, ite_nil] at sends
      have after : Delivers (fun _ => []) s (s.introduce i stream (plan i)).2 :=
        introduced.trans apart (.of_eq clients conns log)
      have client' : (s.introduce i stream (plan i)).2.clients i = some c := by
        rw [clients]
        rcases written with rfl | ⟨e, rfl, -⟩
        · exact client
        · rw [write_clients, client]
      have announced := delivers_sendRecord (after.apart apart) client' framed
        fun _ : (plan i).record = .wouldBlock => picture_of_ne frame token
      rw [picture_of_ne frame token, Option.toList_none, ite_nil] at announced
      exact after.trans apart announced

theorem delivers_notifyDirty (apart : s.Apart) (id : BitVec 32) (token : List UInt8)
    (eventValue : BitVec 64) (plan : Fin maxClients → SendPlan) :
    Delivers (fun _ => []) s (s.notifyDirty id token eventValue plan) := by
  unfold SurfaceServer.notifyDirty
  split
  · exact .of_eq rfl rfl rfl
  rename_i valid
  simp only [not_or, not_not] at valid
  split
  · exact .of_eq rfl rfl rfl
  rename_i target _
  have framed : StreamRecord.Framed ⟨dirtyMsg id (s.dirtySeq + 1#64) eventValue, token⟩ :=
    ⟨rfl, valid.1, fun _ => .inl rfl⟩
  have announced := delivers_all (Prod.snd (α := BitVec 32))
    (notifyClient id target.stream? (dirtyMsg id (s.dirtySeq + 1#64) eventValue) token plan) (l := [])
    (fun told i apart => by
      rw [ite_nil]
      exact delivers_notifyClient apart framed (show msgDirty ≠ msgCursorImage by decide) ..)
    (0#32, { s with dirtySeq := s.dirtySeq + 1#64 }) apart
  have begun : Delivers (fun _ => []) s { s with dirtySeq := s.dirtySeq + 1#64 } :=
    .of_eq rfl rfl rfl
  have after := begun.trans apart announced
  cases target with
  | output index => exact after.same rfl rfl rfl
  | stream k => exact after.same rfl rfl rfl

theorem delivers_notifyCursor (apart : s.Apart) (x y shape : BitVec 32) (visible : Bool)
    (plan : Fin maxClients → SendPlan) :
    Delivers (fun _ => []) s (s.notifyCursor x y shape visible plan) := by
  refine delivers_all id _ (fun s i apart => ?_) s apart
  dsimp only [id]
  split
  · rename_i absent
    exact delivers_nobody absent []
  · rename_i c client
    have still := fun (m : XiosMsg) other => picture_of_ne (m := m) other []
    refine (delivers_sendRecord apart client (framed_empty rfl rfl) fun _ => still _ ?_).congr ?_
    · show msgCursor ≠ msgCursorImage
      decide
    · intro j _ _
      rw [still _ (show msgCursor ≠ msgCursorImage by decide)]
      rfl

variable {width height : BitVec 32}

theorem framed_cursorImageMsg {bgra : List UInt8} (hotX hotY : BitVec 32)
    (wide : width.toNat ≤ cursorImageMax) (high : height.toNat ≤ cursorImageMax)
    (enough : width.toNat * height.toNat * 4 ≤ bgra.length) :
    StreamRecord.Framed ⟨cursorImageMsg width height hotX hotY (width.toNat * height.toNat * 4),
      bgra.take (width.toNat * height.toNat * 4)⟩ := by
  have small : width.toNat * height.toNat * 4 ≤ cursorImageMax * cursorImageMax * 4 :=
    Nat.mul_le_mul_right _ (Nat.mul_le_mul wide high)
  have fits : width.toNat * height.toNat * 4 < 2 ^ 32 := lt_of_le_of_lt small (by decide)
  refine ⟨rfl, ?_, fun _ => .inr rfl⟩
  rw [List.length_take, Nat.min_eq_left enough]
  show _ = (BitVec.ofNat 32 _).toNat
  rw [BitVec.toNat_ofNat, Nat.mod_eq_of_lt fits]

theorem toNat_pos_of_toInt {x : BitVec 32} (positive : 0 < x.toInt) : 0 < x.toNat := by
  rw [BitVec.toInt_eq_toNat_cond] at positive
  omega

theorem delivers_notifyCursorImage (apart : s.Apart) {bgra : Option (List UInt8)}
    (hotX hotY : BitVec 32) (plan : Fin maxClients → SendPlan)
    (allowed : Allowed (.cursorImage bgra width height hotX hotY plan)) :
    Delivers (fun _ => (Event.picture (.cursorImage bgra width height hotX hotY plan)).toList) s
      (s.notifyCursorImage bgra width height hotX hotY plan) := by
  -- The record is the same for everybody, and nobody may put it off.
  have everybody (r : StreamRecord) (framed : r.Framed)
      {send : SurfaceServer → Fin maxClients → SurfaceServer}
      (absent : ∀ s i, s.clients i = none → send s i = s)
      (present : ∀ s i c, s.clients i = some c → send s i = s.sendRecord i c r.msg r.payload
        (if (plan i).record = .wouldBlock then .failed 0 else (plan i).record)) :
      Delivers (fun _ => r.picture.toList) s ((List.finRange maxClients).foldl send s) := by
    refine delivers_all id _ (fun s i apart => ?_) s apart
    dsimp only [id]
    cases client : s.clients i with
    | none =>
      rw [absent s i client]
      exact delivers_nobody client _
    | some c =>
      rw [present s i c client]
      refine delivers_sendRecord apart client framed fun put_off => ?_
      split at put_off
      · cases put_off
      · rename_i heard
        exact absurd put_off heard
  unfold SurfaceServer.notifyCursorImage Event.picture
  dsimp only
  by_cases shown : bgra.isSome ∧ 0 < width.toInt ∧ 0 < height.toInt
  · rw [if_pos shown]
    by_cases large : cursorImageMax < width.toNat ∨ cursorImageMax < height.toNat
    · rw [if_pos large, if_pos ⟨shown, large⟩]
      exact .of_eq rfl rfl rfl
    · rw [if_neg large, if_neg fun both => large both.2]
      simp only [if_pos shown]
      simp only [not_or, not_lt] at large
      obtain ⟨bgra, rfl⟩ := Option.isSome_iff_exists.mp shown.1
      have framed := framed_cursorImageMsg hotX hotY large.1 large.2 allowed
      have some_ : BitVec.ofNat 32 (width.toNat * height.toNat * 4) ≠ 0#32 := by
        intro zero
        have size := framed.size
        rw [show (cursorImageMsg width height hotX hotY _).length = 0#32 from zero,
          List.length_take, Nat.min_eq_left allowed] at size
        have area := Nat.mul_pos (toNat_pos_of_toInt shown.2.1) (toNat_pos_of_toInt shown.2.2)
        have zero' : (0#32).toNat = 0 := rfl
        omega
      have told := @everybody _ framed
      have sends : StreamRecord.picture ⟨cursorImageMsg width height hotX hotY _, _⟩ =
          some (some ⟨bgra.take (width.toNat * height.toNat * 4), width, height, hotX, hotY⟩) :=
        (if_neg (not_not.mpr rfl)).trans (if_neg some_)
      rw [sends] at told
      refine told (fun s i none => by simp only [none]) fun s i c client => ?_
      simp only [client, Option.getD_some]
  · rw [if_neg shown, if_neg fun both => shown both.1]
    simp only [if_neg shown]
    exact everybody ⟨cursorImageMsg 0#32 0#32 0#32 0#32 0, (bgra.getD []).take 0⟩
      (framed_empty rfl rfl) (fun s i none => by simp only [none])
      fun s i c client => by simp only [client]

theorem delivers_takeBack (apart : s.Apart) (id : BitVec 32) (k : Fin maxStreamSurfaces)
    (plan : Fin maxClients → SendPlan) (i : Fin maxClients) :
    Delivers (fun _ => []) s (takeBack id k plan s i) := by
  have plain : StreamRecord.picture ⟨dropMsg id, []⟩ = none :=
    picture_of_ne (show msgSurfaceDrop ≠ msgCursorImage by decide) []
  have framed : StreamRecord.Framed ⟨dropMsg id, []⟩ := framed_empty rfl rfl
  unfold SurfaceServer.takeBack
  cases client : s.clients i with
  | none => exact .of_eq rfl rfl rfl
  | some c =>
    dsimp only
    split
    · split
      · rename_i sent
        have sends := delivers_sendRecord apart client framed
          (show SendResult.sent = .wouldBlock → _ from nofun)
        rw [plain, Option.toList_none, ite_nil] at sends
        rw [sent]
        exact sends
      · have drops := delivers_write_drop apart client framed (plan i).record
        rwa [plain, Option.toList_none, ite_nil] at drops
    · exact .of_eq rfl rfl rfl

/-- Each step mails at most its own picture, and to everybody. -/
theorem delivers_next (geometry : Nat → SurfaceGeometry) (apart : s.Apart) {event : Event}
    (allowed : Allowed event) (settled : ∀ fd caps generation, event ≠ .handshake fd caps generation) :
    Delivers (fun _ => event.picture.toList) s (next geometry s event) := by
  cases event with
  | handshake fd caps generation => exact absurd rfl (settled fd caps generation)
  | readerGone i fd serial =>
    simp only [SurfaceServer.next, dropClientIdentity]
    split
    · exact .of_eq rfl rfl rfl
    · split
      · exact .of_eq rfl rfl rfl
      · exact delivers_dropClient apart i
  | message i serial m =>
    simp only [SurfaceServer.next, handleClientMsg, handleReleased]
    split
    · exact .of_eq rfl rfl rfl
    · split
      · exact .of_eq rfl rfl rfl
      · split
        · split
          · exact .of_eq rfl rfl rfl
          · split
            · exact .of_eq rfl rfl rfl
            · split <;> exact .of_eq rfl rfl rfl
        · exact .of_eq rfl rfl rfl
  | resize =>
    simp only [SurfaceServer.next, SurfaceServer.resize]
    split
    · exact .of_eq rfl rfl rfl
    · refine ⟨rfl, fun _ _ => rfl, fun i c _ => .inr ⟨rfl, [], rfl, .inl (List.forall_mem_nil _), ?_⟩, fun _ _ => rfl⟩
      exact List.nil_suffix
  | register surface flags =>
    simp only [SurfaceServer.next, SurfaceServer.streamRegisterSurface]
    split
    · exact .of_eq rfl rfl rfl
    · split
      · exact .of_eq rfl rfl rfl
      · split <;> exact .of_eq rfl rfl rfl
  | unregister id plan =>
    simp only [SurfaceServer.next, SurfaceServer.streamUnregisterSurface]
    split
    · exact .of_eq rfl rfl rfl
    · rename_i k _
      have told := delivers_all (fun s : SurfaceServer => s) (takeBack id k plan) (l := [])
        (fun s i apart => by
          rw [ite_nil]
          exact delivers_takeBack apart id k plan i) s apart
      exact told.same rfl rfl rfl
  | dirty id token eventValue plan => exact delivers_notifyDirty apart id token eventValue plan
  | cursor x y shape visible plan => exact delivers_notifyCursor apart x y shape visible plan
  | cursorImage bgra width height hotX hotY plan =>
    exact delivers_notifyCursorImage apart hotX hotY plan allowed
  | acquire =>
    simp only [SurfaceServer.next, outputAcquire]
    split <;> exact .of_eq rfl rfl rfl
  | cancel id =>
    simp only [SurfaceServer.next, outputCancel]
    split <;> exact .of_eq rfl rfl rfl

/-- What the connections have been sent of the images of a history. -/
structure Mailed (sent : List (Option Picture)) (s : SurfaceServer) : Prop where
  -- Connections are used for one client only.
  fresh : ∀ conn, s.conns ≤ conn → s.log conn = []
  numbered : ∀ i c, s.clients i = some c → c.conn < s.conns
  apart : s.Apart
  -- A connected client has been sent the newest images.
  live : ∀ i c, s.clients i = some c →
    (∀ x ∈ s.log c.conn, x.Framed) ∧ picturesSent (s.log c.conn) <+: sent
  -- All connections have been sent some images that follow each other.
  all : ∀ conn, Legible (s.log conn) ∧ picturesSent (s.log conn) <:+: sent

theorem Mailed.deliver {old new : List (Option Picture)} (mailed : s.Mailed old)
    (delivers : Delivers (fun _ => new) s s') : s'.Mailed (new ++ old) := by
  have free {conn : Nat} (unused : s.conns ≤ conn) (i : Fin maxClients) (c : AppClient)
      (client : s.clients i = some c) : c.conn ≠ conn := by
    have used := mailed.numbered i c client
    omega
  refine ⟨fun conn unused => ?_, fun i c client => ?_, delivers.apart mailed.apart,
    fun i c client => ?_, fun conn => ?_⟩
  · rw [delivers.conns] at unused
    rw [delivers.others conn (free unused), mailed.fresh conn unused]
  · rw [delivers.conns]
    exact mailed.numbered i c (delivers.client_before client)
  · have before := delivers.client_before client
    obtain ⟨whole, part⟩ := mailed.live i c before
    rcases delivers.present i c before with ⟨-, added, log, framed, all⟩ | ⟨gone, -⟩
    · rw [log, picturesSent_append, all]
      refine ⟨fun x member => (List.mem_append.mp member).elim (framed x) (whole x), ?_⟩
      exact (List.prefix_append_right_inj new).mpr part
    · rw [gone] at client
      cases client
  · by_cases known : ∃ i c, s.clients i = some c ∧ c.conn = conn
    · obtain ⟨i, c, before, rfl⟩ := known
      obtain ⟨whole, rest, split⟩ := mailed.live i c before
      rcases delivers.present i c before with
        ⟨-, added, log, framed, all⟩ | ⟨-, added, log, legible, more, split'⟩
      · rw [log, picturesSent_append, all]
        exact ⟨legible_append (.inl framed) whole, [], rest, by rw [← split]; simp⟩
      · rw [log, picturesSent_append]
        exact ⟨legible_append legible whole, more, rest, by rw [← split, ← split']; simp⟩
    · rw [delivers.others conn fun i c client same => known ⟨i, c, client, same⟩]
      exact ⟨(mailed.all conn).1, (mailed.all conn).2.trans (List.suffix_append new old).isInfix⟩

theorem Mailed.handleClient {sent : List (Option Picture)} (mailed : s.Mailed sent) (fd : Nat)
    (caps generation : BitVec 32) : (s.handleClient fd caps generation).Mailed sent := by
  unfold SurfaceServer.handleClient
  split
  · exact mailed
  split
  · exact mailed
  cases added : s.addClient fd caps generation with
  | none => exact mailed
  | some s' =>
    obtain ⟨i, c, clients, conns, log, conn⟩ : ∃ i c,
        s'.clients = Function.update s.clients i (some c) ∧ s'.conns = s.conns + 1 ∧
          s'.log = s.log ∧ c.conn = s.conns := by
      unfold SurfaceServer.addClient at added
      split at added
      · cases added
      split at added
      · cases added
      split at added
      · cases added
      · cases added
        split <;> exact ⟨_, _, rfl, rfl, rfl, rfl⟩
    have cases_ {j : Fin maxClients} {c' : AppClient} (client : s'.clients j = some c') :
        j = i ∧ c' = c ∨ s.clients j = some c' := by
      rw [clients] at client
      by_cases same : j = i
      · subst same
        rw [Function.update_self] at client
        exact .inl ⟨rfl, (Option.some.inj client).symm⟩
      · rw [Function.update_of_ne same] at client
        exact .inr client
    show s'.Mailed sent
    refine ⟨fun k unused => ?_, fun j c' client => ?_, fun j k c' c'' client client' same => ?_,
      fun j c' client => ?_, ?_⟩
    · rw [log]
      exact mailed.fresh k (by omega)
    · rw [conns]
      rcases cases_ client with ⟨-, rfl⟩ | old
      · omega
      · have used := mailed.numbered j c' old
        omega
    · rcases cases_ client with ⟨rfl, rfl⟩ | old <;> rcases cases_ client' with ⟨rfl, rfl⟩ | old'
      · rfl
      · have used := mailed.numbered k c'' old'
        omega
      · have used := mailed.numbered j c' old
        omega
      · exact mailed.apart j k c' c'' old old' same
    · rw [log]
      rcases cases_ client with ⟨-, rfl⟩ | old
      · rw [conn, mailed.fresh s.conns le_rfl]
        exact ⟨nofun, List.nil_prefix⟩
      · exact mailed.live j c' old
    · rw [log]
      exact mailed.all

variable {geometry : Nat → SurfaceGeometry} {trace : List Event}

theorem mailed_of_run (run : (machine geometry).Run trace s) : s.Mailed (pictures trace) := by
  refine run.invariant (fun trace s => s.Mailed (pictures trace)) ?_ ?_
  · intro s begun
    obtain ⟨_, queue, releaseToken, -, rfl⟩ := begun
    exact ⟨fun _ _ => rfl, nofun, nofun, nofun, fun _ => ⟨.inl nofun, List.nil_infix⟩⟩
  · intro trace s event mailed allowed
    have added : pictures (event :: trace) = event.picture.toList ++ pictures trace := by
      simp only [pictures, List.filterMap_cons]
      cases event.picture <;> rfl
    rw [added]
    by_cases new : ∃ fd caps generation, event = .handshake fd caps generation
    · obtain ⟨fd, caps, generation, rfl⟩ := new
      exact mailed.handleClient fd caps generation
    · refine mailed.deliver (delivers_next geometry mailed.apart allowed ?_)
      exact fun fd caps generation same => new ⟨fd, caps, generation, same⟩

theorem whole_pictures (run : (machine geometry).Run trace s) {p : Picture}
    (sent : some p ∈ pictures trace) : p.Whole := by
  induction run with
  | start => cases sent
  | @step trace s event run allowed ih =>
    simp only [pictures, List.filterMap_cons] at sent
    cases shown : event.picture with
    | none =>
      rw [shown] at sent
      exact ih sent
    | some picture =>
      rw [shown, List.mem_cons] at sent
      rcases sent with same | before
      · subst same
        cases event with
        | cursorImage bgra width height hotX hotY plan =>
          simp only [Event.picture] at shown
          split at shown
          · rename_i sized
            split at shown
            · cases shown
            · cases shown
              obtain ⟨bgra, rfl⟩ := Option.isSome_iff_exists.mp sized.1
              exact ⟨sized.2.1, sized.2.2, List.length_take.trans (Nat.min_eq_left allowed)⟩
          · cases shown
        | _ => cases shown
      · exact ih before

end

end SurfaceServer

theorem imageOf_spec (records : List StreamRecord) :
    (imageOf records).seq = BitVec.ofNat 32 (picturesOf records).length ∧
      (∀ p, (picturesOf records).getLast? = some (some p) → (imageOf records).picture = p) ∧
      ((∀ p, (picturesOf records).getLast? ≠ some (some p)) → (imageOf records).width = 0#32) := by
  induction records using List.reverseRecOn with
  | nil => exact ⟨rfl, nofun, fun _ => rfl⟩
  | append_singleton records r ih =>
    rw [imageOf_append]
    have added : picturesOf (records ++ [r]) = picturesOf records ++ r.picture.toList := by
      simp only [picturesOf, List.filterMap_append, List.filterMap_cons, List.filterMap_nil]
      cases r.picture <;> rfl
    rw [added]
    by_cases other : r.msg.type ≠ msgCursorImage
    · rw [applyImage, if_pos other, StreamRecord.picture, if_pos other, Option.toList_none,
        List.append_nil]
      exact ih
    · -- One more image was received, or the last one was withdrawn.
      have counted : (imageOf records).seq + 1#32 =
          BitVec.ofNat 32 ((picturesOf records).length + 1) := by
        rw [ih.1, BitVec.ofNat_add]
      by_cases empty : r.msg.length = 0#32
      · rw [applyImage, if_neg other, if_pos empty, StreamRecord.picture, if_neg other, if_pos empty]
        refine ⟨?_, ?_, fun _ => rfl⟩
        · simpa using counted
        · simp
      · rw [applyImage, if_neg other, if_neg empty, StreamRecord.picture, if_neg other,
          if_neg empty]
        refine ⟨?_, ?_, ?_⟩
        · simpa using counted
        · simp [CursorImage.picture]
        · simp

theorem AppStream.consumed_of_run {geometry : Nat → SurfaceGeometry} {outputs : List Nat}
    {wire : List UInt8} {ports : List Nat} {trace : List DrainAnswer} {s : AppStream}
    (run : (AppStream.machine geometry outputs wire ports).Run trace s) : s.consumed <+: wire := by
  refine run.invariant (fun _ s => s.consumed <+: wire) ?_ ?_
  · rintro s rfl
    exact List.nil_prefix
  · intro _ s answer part allowed
    have consumed : (s.next geometry answer).consumed = s.consumed ++ answerBytes answer := by
      unfold AppStream.next
      dsimp only
      split <;> rfl
    show (s.next geometry answer).consumed <+: wire
    rw [consumed]
    cases answer with
    | port result => simpa [answerBytes] using part
    | recv result =>
      cases result with
      | data bytes =>
        have requested := allowed.2
        cases waiting : s.conn.pendingSurface with
        | some m => simp [waiting] at requested
        | none =>
          simp only [waiting] at requested
          exact requested.2.2
      | _ => simpa [answerBytes] using part

namespace SurfaceServer

/--
At every moment the app shows the last image that it has received in full, if that is not withdrawn.
The images that it has received are images that were sent, one after the other.
-/
theorem images_atomic {geometry : Nat → SurfaceGeometry} {trace : List Event} {s : SurfaceServer}
    (run : (machine geometry).Run trace s) (outputs : List Nat) (conn : Nat)
    {reads : List DrainAnswer} {app : AppStream}
    (reading : (appMachine geometry outputs s conn).Run reads app) :
    picturesOf app.records <:+: (pictures trace).reverse ∧
      app.conn.cursorImage.map CursorImage.picture = (picturesOf app.records).getLast?.join ∧
      (∀ image ∈ app.conn.cursorImage, image.picture.Whole) ∧
      app.conn.image.seq = BitVec.ofNat 32 (picturesOf app.records).length := by
  have mailed := mailed_of_run run
  obtain ⟨legible, sent⟩ := mailed.all conn
  obtain ⟨pending, parsed⟩ := legible.parse_wire
  have framed : InRecords (wire (s.log conn)) := by
    unfold InRecords
    rw [parsed]
    exact Option.some_ne_none _
  obtain ⟨_, _, -, image, -⟩ := AppStream.follows_of_run framed reading
  obtain ⟨count, shown, hidden⟩ := imageOf_spec app.records
  rw [← image] at count shown hidden
  have received : picturesOf app.records <:+: (pictures trace).reverse := by
    have part := recordReader.parse_out_prefix .header (AppStream.consumed_of_run reading)
    rw [parsed] at part
    have kept := (part.filterMap StreamRecord.picture).isInfix
    rw [List.filterMap_reverse] at kept
    exact kept.trans (List.reverse_infix.mpr sent)
  have current : app.conn.cursorImage.map CursorImage.picture =
      (picturesOf app.records).getLast?.join := by
    by_cases some_ : ∃ p, (picturesOf app.records).getLast? = some (some p)
    · obtain ⟨p, last⟩ := some_
      have member := received.subset (List.mem_of_getLast? last)
      rw [List.mem_reverse] at member
      have whole := whole_pictures run member
      rw [← shown p last] at whole
      have visible : app.conn.cursorImage = some app.conn.image := by
        refine if_neg fun empty => ?_
        rcases empty with narrow | low
        · exact absurd whole.1 (not_lt.mpr narrow)
        · exact absurd whole.2.1 (not_lt.mpr low)
      rw [visible, last, Option.map_some, shown p last]
      rfl
    · have gone := hidden fun p last => some_ ⟨p, last⟩
      have invisible : app.conn.cursorImage = none := by
        refine if_pos (.inl ?_)
        rw [gone]
        decide
      rw [invisible]
      cases last : (picturesOf app.records).getLast? with
      | none => rfl
      | some p =>
        cases p with
        | none => rfl
        | some p => exact absurd ⟨p, last⟩ some_
  refine ⟨received, current, fun image member => ?_, count⟩
  -- What is shown is an image that was sent.
  have shown' : some image.picture = (picturesOf app.records).getLast?.join := by
    rw [← current, member]
    rfl
  have last := Option.join_eq_some_iff.mp shown'.symm
  have sent' := received.subset (List.mem_of_getLast? last)
  rw [List.mem_reverse] at sent'
  exact whole_pictures run sent'

def onePixel : List Event :=
  [.handshake 3 helloCapStreamV2 0#32, .cursorImage (some [1, 2, 3, 4]) 1#32 1#32 0#32 0#32 fun _ => {}]

theorem admits_onePixel : (machine squares).Admits oneOutput onePixel := by
  refine ⟨trivial, ?_, trivial⟩
  show _ ≤ _
  decide

theorem images_atomic_onePixel :
    ∃ trace s reads app, (machine squares).Run trace s ∧ (appMachine squares [9] s 0).Run reads app ∧
      app.conn.cursorImage.map CursorImage.picture = some ⟨[1, 2, 3, 4], 1#32, 1#32, 0#32, 0#32⟩ := by
  have run := Machine.Run.of_script start_oneOutput onePixel admits_onePixel
  have script : (appMachine squares [9] (onePixel.foldl (machine squares).next oneOutput) 0).Admits
      { conn := .connected squares [9] }
      [.recv (.data (cursorImageMsg 1#32 1#32 0#32 0#32 4).encode), .recv (.data [1, 2, 3, 4])] := by
    refine ⟨⟨rfl, ?_⟩, ⟨rfl, ?_⟩, trivial⟩
    · show _ ≠ _ ∧ _ ≤ _ ∧ _ <+: _
      decide
    · show _ ≠ _ ∧ _ ≤ _ ∧ _ <+: _
      decide
  have reading := Machine.Run.of_script rfl _ script
  refine ⟨_, _, _, _, run, reading, ?_⟩
  rw [(images_atomic run [9] 0 reading).2.1]
  decide

end SurfaceServer

end Xios
