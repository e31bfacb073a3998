import Homelab.Automaton
import Homelab.NodePath
import Homelab.DriftObservation
import Homelab.RoleCatalog

/-! `ClockStore`, which keeps the running clocks as files of one directory, and `ObservationPromoter`, which
starts and stops the MTTR clocks of the observations and swallows what the store throws. -/
namespace Homelab
open Js Path

/-! ### Clocks -/

inductive ClockKind
  | mttr | gateLatency

def ClockKind.text : ClockKind → JsString
  | mttr => js "mttr"
  | gateLatency => js "gate-latency"

structure Clock where
  id : JsString
  kind : ClockKind
  key : JsString
  startedAt : ℤ
  metadata : List (JsString × JsString)

structure StopResult where
  startedAt : ℤ
  durationMs : ℤ
  metadata : List (JsString × JsString)

inductive ClockError
  | invalidKey (composite : JsString)
  | alreadyRunning (kind : ClockKind) (key : JsString)
  | io

def ClockError.message : ClockError → JsString
  | invalidKey composite => js "invalid clock key: " ++ composite
  | alreadyRunning kind key => js "clock already running for kind=" ++ kind.text ++ js " key=" ++ key
  | io => []

/-- `SAFE_ID` -/
def isSafeComposite (s : JsString) : Bool :=
  let isSafe (c : CodeUnit) : Bool :=
    (0x41 ≤ c && c ≤ 0x5A) || (0x61 ≤ c && c ≤ 0x7A) || (0x30 ≤ c && c ≤ 0x39) || c = 0x5F || c = 0x3A ||
      c = 0x2D
  1 ≤ s.length && s.length ≤ 128 && s.all isSafe

def composite (kind : ClockKind) (key : JsString) : JsString := kind.text ++ js ":" ++ key

/-- The id of a clock ends with four random bytes. -/
def clockId (kind : ClockKind) (key : JsString) (random : Vector UInt8 4) : JsString :=
  kind.text ++ js "--" ++ key ++ js "--" ++ hexText random.toList

/-! ### The store -/

/-- A file of the directory: the segments of its path, and the clock that is signed in it -/
structure ClockFile where
  path : List JsString
  clock : Clock

/-- The directory of the clocks, and the clocks that could be read from files outside of it -/
structure ClockHost where
  cwd : JsString
  dir : JsString
  elsewhere : List JsString → Option Clock

/-- Which of the calls of the file system succeed: listing the directory and reading its files, writing a
file, and unlinking one -/
structure StoreIo where
  reads : Bool
  writes : Bool
  unlinks : Bool

namespace ClockHost

variable (host : ClockHost)

def pathFor (id : JsString) : List JsString := locate host.cwd (join [host.dir, id ++ js ".json"])

def readById (id : JsString) (files : List ClockFile) : Option Clock :=
  match files.find? fun f => f.path = host.pathFor id with
  | some f => some f.clock
  | none =>
    if (host.pathFor id).dropLast = locate host.cwd host.dir then none else host.elsewhere (host.pathFor id)

/-- `findByKey`, over what `listAll` has read -/
def findByKey (kind key : JsString) (files : List ClockFile) : Option Clock :=
  (files.map fun f => f.clock).find? fun clock => clock.kind.text = kind ∧ clock.key = key

/-- The files that `start` leaves -/
def start (io : StoreIo) (kind : ClockKind) (key : JsString) (metadata : List (JsString × JsString)) (now : ℤ)
    (random : Vector UInt8 4) (files : List ClockFile) : Except ClockError (List ClockFile) :=
  if !isSafeComposite (composite kind key) then .error (.invalidKey (composite kind key))
  else if !io.reads then .error .io
  else
    match findByKey kind.text key files with
    | some _ => .error (.alreadyRunning kind key)
    | none =>
      let id := clockId kind key random
      if !io.writes then .error .io
      else .ok (files.filter (fun f => f.path ≠ host.pathFor id) ++
        [⟨host.pathFor id, ⟨id, kind, key, now, metadata⟩⟩])

/-- What `stop` looks up: a text with two dashes in a row is taken for the id of a file. -/
def lookUp (idOrComposite : JsString) (files : List ClockFile) : Option Clock :=
  if includes (js "--") idOrComposite then host.readById idOrComposite files
  else if includes (js ":") idOrComposite then
    let colon := idOrComposite.idxOf 0x3A
    findByKey (idOrComposite.take colon) (idOrComposite.drop (colon+1)) files
  else none

/-- What `stop` returns, and the files that it leaves; that a file cannot be unlinked is ignored. -/
def stop (io : StoreIo) (now : ℤ) (idOrComposite : JsString) (files : List ClockFile) :
    Except ClockError (Option StopResult × List ClockFile) :=
  if (includes (js "--") idOrComposite || includes (js ":") idOrComposite) && !io.reads then .error .io
  else
    match host.lookUp idOrComposite files with
    | none => .ok (none, files)
    | some clock =>
      .ok (some ⟨clock.startedAt, now-clock.startedAt, clock.metadata⟩,
        if io.unlinks then files.filter fun f => f.path ≠ host.pathFor clock.id else files)

end ClockHost

/-! ### The promoter -/

/-- A call that returns: what the store throws is swallowed. `resolved` does nothing with the store. -/
inductive PromoterEvent
  | promote (obs : Observation) (io : StoreIo) (now : ℤ) (random : Vector UInt8 4)
  | cancel (obs : Observation) (io : StoreIo) (now : ℤ)
  | resolved (obs : Observation)

/-- The files of the clocks, and the ids of the observations that have been promoted, and neither cancelled
nor resolved since -/
structure PromoterState where
  files : List ClockFile
  live : List JsString

def PromoterState.empty : PromoterState := ⟨[], []⟩

/-- The metadata of the clock of an observation -/
def Observation.clockMetadata (obs : Observation) : List (JsString × JsString) :=
  [(js "platform", obs.platform), (js "pattern", obs.pattern)]

namespace PromoterState

variable (host : ClockHost) (s : PromoterState)

def promote (obs : Observation) (io : StoreIo) (now : ℤ) (random : Vector UInt8 4) : PromoterState where
  files :=
    match host.start io .mttr obs.id obs.clockMetadata now random s.files with
    | .ok files => files
    | .error _ => s.files
  live := obs.id :: s.live

def cancel (obs : Observation) (io : StoreIo) (now : ℤ) : PromoterState where
  files :=
    match host.stop io now (composite .mttr obs.id) s.files with
    | .ok (_, files) => files
    | .error _ => s.files
  live := s.live.filter (· ≠ obs.id)

def resolved (obs : Observation) : PromoterState where
  files := s.files
  live := s.live.filter (· ≠ obs.id)

end PromoterState

def promoter (host : ClockHost) : Automaton PromoterState PromoterEvent where
  allowed _ _ := True
  next s
    | .promote obs io now random => s.promote host obs io now random
    | .cancel obs io now => s.cancel host obs io now
    | .resolved obs => s.resolved obs

end Homelab
