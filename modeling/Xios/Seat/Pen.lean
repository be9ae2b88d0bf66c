import Xios.Lib.SwapTable
import Xios.Lib.Machine
import Xios.Seat.Held

/-! Strokes of the pencil in `iosc_tablet.c`, and what the pen tools of the clients are told. -/

namespace Xios

def maxTabletSeats : Nat := 16

/-- What a client is told of its tool. -/
inductive ToolEvent where
  -- The pen comes near a surface, and goes away.
  | proximityIn (surface : Nat)
  | proximityOut
  -- The tip touches the surface, and is lifted.
  | down
  | up
  -- The axes of the pen.
  | motion (x y : Int)
  | pressure (value : Nat)
  | tilt (x y : Int)
  -- What was told before belongs together.
  | frame
  deriving DecidableEq

/-- A tablet seat of a client, with the tablet and the tool announced on it. -/
structure TabletSeat where
  -- Number of the seat, by which its tool is known as well.
  id : Nat
  client : Nat
  -- The tablet and the tool have not been destroyed.
  tablet : Bool := true
  tool : Bool := true
  deriving DecidableEq

/-- A record of the pencil. -/
structure PencilRecord where
  phase : TouchPhase
  x : Int := 0
  y : Int := 0
  pressure : Nat := 0
  tiltx : Int := 0
  tilty : Int := 0
  deriving DecidableEq

/-- The stroke of the pencil and the tablet seats of the clients. -/
structure PenState where
  seats : List TabletSeat := []
  -- The surface that owns the current stroke.
  focus : Option Nat := none
  down : Bool := false
  -- The client of the input socket that put the pencil down last.
  penClient : Nat := 0
  -- Seats created so far, for reference only.
  created : Nat := 0
  -- What each tool was told, oldest first and for reference only.
  log : Nat → List ToolEvent := fun _ => []

/-- The surfaces, as far as strokes depend on them. -/
structure PenSurfaces where
  client : Nat → Nat
  -- A place of the output in the coordinates of a surface.
  localCoords : Nat → Int → Int → Int × Int

namespace PenState

def send (st : PenState) (tool : Nat) (event : ToolEvent) : PenState :=
  { st with log := Function.update st.log tool (st.log tool ++ [event]) }

def tabletSeatForClient (st : PenState) (client : Nat) : Option TabletSeat :=
  st.seats.find? fun seat => seat.client = client

variable (surfaces : PenSurfaces)

def penLeave (st : PenState) : PenState :=
  match st.focus with
  | none => st
  | some s =>
    let told :=
      match st.tabletSeatForClient (surfaces.client s) with
      | none => st
      | some seat =>
        if seat.tool then
          let st := if st.down then st.send seat.id .up else st
          (st.send seat.id .proximityOut).send seat.id .frame
        else st
    { told with focus := none, down := false }

def penSurfaceGone (st : PenState) (s : Nat) : PenState :=
  if st.focus = some s then st.penLeave surfaces else st

def penSendAxes (st : PenState) (tool s : Nat) (record : PencilRecord) : PenState :=
  let place := surfaces.localCoords s record.x record.y
  ((st.send tool (.motion place.1 place.2)).send tool (.pressure (min record.pressure 65535))).send
    tool (.tilt record.tiltx record.tilty)

def handlePencilDown (st : PenState) (record : PencilRecord) (hit : Option Nat) : PenState :=
  let st := if hit = st.focus then st else st.penLeave surfaces
  match hit with
  | none => st
  | some hit =>
    let entering : Bool := st.focus ≠ some hit
    let st := { st with focus := some hit, down := true }
    match st.tabletSeatForClient (surfaces.client hit) with
    | none => st
    | some seat =>
      if seat.tool ∧ seat.tablet then
        let st := if entering then st.send seat.id (.proximityIn hit) else st
        let st := st.penSendAxes surfaces seat.id hit record
        (st.send seat.id .down).send seat.id .frame
      else st

def handlePencil (st : PenState) (record : PencilRecord) (hit : Option Nat) : PenState :=
  match record.phase with
  | .cancel => st.penLeave surfaces
  | .down => st.handlePencilDown surfaces record hit
  | phase =>
    match st.focus with
    | none => st
    | some s =>
      match (st.tabletSeatForClient (surfaces.client s)).filter (·.tool) with
      | none => if phase = .up then { st with focus := none, down := false } else st
      | some seat =>
        if phase = .motion then
          (st.penSendAxes surfaces seat.id s record).send seat.id .frame
        else if phase = .up then st.penLeave surfaces
        else st

def tabletMgrGetTabletSeat (st : PenState) (client : Nat) (allocated : Bool) : PenState :=
  if maxTabletSeats ≤ st.seats.length ∨ allocated = false then st
  else
    { st with
      seats := st.seats ++ [⟨st.created, client, true, true⟩]
      created := st.created + 1 }

def modifySeat (st : PenState) (id : Nat) (f : TabletSeat → TabletSeat) : PenState :=
  { st with seats := st.seats.map fun seat => if seat.id = id then f seat else seat }

def tabletToolResDestroy (st : PenState) (id : Nat) : PenState :=
  st.modifySeat id fun seat => { seat with tool := false }

def tabletResDestroy (st : PenState) (id : Nat) : PenState :=
  st.modifySeat id fun seat => { seat with tablet := false }

def tabletSeatResDestroy (st : PenState) (id : Nat) : PenState :=
  let index := st.seats.findIdx fun seat => seat.id = id
  if index < st.seats.length then { st with seats := SwapTable.takeOut st.seats index } else st

end PenState

/-- What can happen to strokes and tablet seats. -/
inductive PenEvent where
  -- A record of a client of the input socket, with the surface that is at its place.
  | tablet (client : Nat) (record : PencilRecord) (hit : Option Nat)
  -- A surface is unmapped or destroyed.
  | surfaceGone (s : Nat)
  | sessionLocked
  -- A client of the input socket is gone.
  | inputClientDropped (client : Nat)
  -- A client asks for a tablet seat, for which there may be no memory.
  | getTabletSeat (client : Nat) (allocated : Bool)
  -- The objects of a seat are destroyed.
  | toolDestroyed (id : Nat)
  | tabletDestroyed (id : Nat)
  | seatDestroyed (id : Nat)
  deriving DecidableEq

namespace PenState

variable (surfaces : PenSurfaces)

def next (st : PenState) : PenEvent → PenState
  | .tablet client record hit =>
    let st := st.handlePencil surfaces record hit
    if record.phase = .down then { st with penClient := client } else st
  | .surfaceGone s => st.penSurfaceGone surfaces s
  | .sessionLocked => st.penLeave surfaces
  | .inputClientDropped client =>
    if st.penClient = client then { st.penLeave surfaces with penClient := 0 } else st
  | .getTabletSeat client allocated => st.tabletMgrGetTabletSeat client allocated
  | .toolDestroyed id => st.tabletToolResDestroy id
  | .tabletDestroyed id => st.tabletResDestroy id
  | .seatDestroyed id => st.tabletSeatResDestroy id

/-- Strokes and tablet seats from the start of the compositor on. -/
def machine : Machine PenState PenEvent where
  start st := st = {}
  enabled _ _ := True
  next := next surfaces

end PenState

/-- Where the events of a tool are within a stroke. -/
inductive ToolPhase where
  | away
  -- It has come near and was not put down yet.
  | near
  -- The tip is down.
  | touching
  | lifted
  deriving DecidableEq

def ToolPhase.advance : ToolPhase → ToolEvent → Option ToolPhase
  | .away, .proximityIn _ => some .near
  | .near, .down => some .touching
  | .touching, .up => some .lifted
  | .lifted, .proximityOut => some .away
  | .near, .motion .. | .near, .pressure _ | .near, .tilt .. => some .near
  | .touching, .motion .. | .touching, .pressure _ | .touching, .tilt .. => some .touching
  | phase, .frame => some phase
  | _, _ => none

def toolPhase (log : List ToolEvent) : Option ToolPhase :=
  log.foldlM ToolPhase.advance .away

/--
Events form groups, the last of which may not be complete.

A group is the pen coming near, axes, the tip going down, axes, the tip going up, and the pen going
away.
-/
def Bracketed (log : List ToolEvent) : Prop :=
  (toolPhase log).isSome
  deriving Decidable

namespace PenState

variable (surfaces : PenSurfaces)

def strokeSeat (st : PenState) : Option TabletSeat :=
  st.focus.bind fun s => (st.tabletSeatForClient (surfaces.client s)).filter (·.tool)

/-- The first seat of a client behind a place of the table whose seat the last one replaces. -/
def heir (st : PenState) (index client : Nat) : Option TabletSeat :=
  let later := st.seats.drop (index + 1)
  (later.getLast?.filter fun seat => seat.client = client).or
    (later.find? fun seat => seat.client = client)

/-- An event that leaves no tool in the middle of a stroke. -/
def Orderly (st : PenState) : PenEvent → Prop
  | .tablet _ record hit =>
    record.phase = .down →
      ∀ s ∈ hit, ∀ seat ∈ st.tabletSeatForClient (surfaces.client s), seat.tool = true →
        -- The pencil is not put down again on the surface of the stroke, and there is a tablet.
        st.focus ≠ some s ∧ seat.tablet = true
  | .getTabletSeat client allocated =>
    -- No client gets its first seat during its stroke.
    allocated = true → st.seats.length < maxTabletSeats →
      ∀ s ∈ st.focus, surfaces.client s = client → (st.tabletSeatForClient client).isSome = true
  | .seatDestroyed id =>
    -- If no seat before it is the client's, a stroke stays with its seat, or ends with it.
    ∀ s ∈ st.focus,
      (∀ seat ∈ st.seats.take (st.seats.findIdx fun seat => seat.id = id),
        seat.client ≠ surfaces.client s) →
      (st.heir (st.seats.findIdx fun seat => seat.id = id) (surfaces.client s)).filter (·.tool) =
        (st.strokeSeat surfaces).filter fun seat => seat.id ≠ id
  | _ => True

instance (st : PenState) : DecidablePred (st.Orderly surfaces)
  | .tablet .. | .getTabletSeat .. | .seatDestroyed _ => by unfold Orderly; infer_instance
  | .surfaceGone _ | .sessionLocked | .inputClientDropped _ | .toolDestroyed _
  | .tabletDestroyed _ => .isTrue trivial

end PenState

end Xios
