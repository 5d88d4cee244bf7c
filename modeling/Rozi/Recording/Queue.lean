import Rozi.Library.Transition
import Rozi.Library.Yielding

/-!
The queue between the producer of a recording and the thread that writes it. Frames, events and
ends are of any type, so that each may carry an identity of its own.
-/

namespace Rozi.Recording

def queueFrames : Nat := 8

def queueEvents : Nat := 1024

inductive Job (F E S : Type) where
  | frame (frame : F)
  | event (event : E)
  | finish (stop : S)
  deriving DecidableEq, Repr

namespace Job

variable {F E S : Type}

def isFrame : Job F E S → Bool
  | frame _ => true
  | event _ | finish _ => false

def isFinish : Job F E S → Bool
  | finish _ => true
  | frame _ | event _ => false

end Job

structure Recorder (F E S : Type) where
  jobs : List (Job F E S) := []
  frames : Nat := 0
  closed : Bool := false
  dropped : Nat := 0
  deriving DecidableEq, Repr

namespace Recorder

variable {F E S : Type} (recorder : Recorder F E S)

/-- The newest queued frame another frame follows. -/
def victim : Option Nat :=
  (List.range (recorder.jobs.length - 1)).reverse.find? fun at' =>
    (recorder.jobs[at']?).any Job.isFrame && (recorder.jobs[at' + 1]?).any Job.isFrame

def placeFrame (job : Job F E S) (last : Bool) : Recorder F E S × Bool :=
  if recorder.frames < queueFrames then
    ({ recorder with jobs := recorder.jobs ++ [job], frames := recorder.frames + 1 }, true)
  else if recorder.jobs.getLast?.any Job.isFrame then
    ({ recorder with
        jobs := recorder.jobs.dropLast ++ [job], dropped := recorder.dropped + 1 }, true)
  else match recorder.victim with
  | some victim =>
      ({ recorder with
          jobs := recorder.jobs.eraseIdx victim ++ [job], dropped := recorder.dropped + 1 }, true)
  | none =>
      if last && recorder.frames == queueFrames then
        ({ recorder with jobs := recorder.jobs ++ [job], frames := recorder.frames + 1 }, true)
      else (recorder, false)

def push (frame : F) (last : Bool) : Recorder F E S × Bool :=
  if recorder.closed then (recorder, false) else recorder.placeFrame (.frame frame) last

def pushFrame (frame : F) : Recorder F E S × Bool := recorder.push frame false

def pushLastFrame (frame : F) : Recorder F E S × Bool := recorder.push frame true

def queuedEvents : Nat := recorder.jobs.length - recorder.frames

def pushFrameWith (frame : F) (events : List E) (last : Bool) : Recorder F E S × Bool :=
  if recorder.closed ||
      (!last && decide (queueEvents < recorder.queuedEvents + events.length)) then
    (recorder, false)
  else
    let (placed, queued) := recorder.placeFrame (.frame frame) last
    if queued then ({ placed with jobs := placed.jobs ++ events.map Job.event }, true)
    else (recorder, false)

def pushEvent (event : E) : Recorder F E S × Bool :=
  if recorder.closed || decide (queueEvents ≤ recorder.queuedEvents) then (recorder, false)
  else ({ recorder with jobs := recorder.jobs ++ [.event event] }, true)

def mark (event : E) : Recorder F E S × Bool := recorder.pushEvent event

/-- The second half of `meta`, once its event was refused: it is counted unless the recording has
ended. The queue is not locked between the halves. -/
def countMeta : Recorder F E S :=
  if recorder.closed then recorder else { recorder with dropped := recorder.dropped + 1 }

def finish (stop : S) : Recorder F E S :=
  if recorder.closed then recorder
  else { recorder with jobs := recorder.jobs ++ [.finish stop], closed := true }

def pop : Option (Job F E S) × Recorder F E S :=
  match recorder.jobs with
  | [] => (none, recorder)
  | job :: jobs =>
      (some job,
        { recorder with
          jobs, frames := if job.isFrame then recorder.frames - 1 else recorder.frames })

end Recorder

inductive Call (F E S : Type) where
  | pushFrame (frame : F)
  | pushLastFrame (frame : F)
  | pushFrameWith (frame : F) (events : List E) (last : Bool)
  | mark (event : E)
  | metaEvent (event : E)
  | countMeta
  | finish (stop : S)
  | pop

/-- A recorder with everything it has accepted and written, and whether a last frame was among
it. Of the refused meta events, those still to be counted and those that were. -/
structure Run (F E S : Type) where
  recorder : Recorder F E S := {}
  accepted : List (Job F E S) := []
  written : List (Job F E S) := []
  lastFrame : Bool := false
  refusedMetas : Nat := 0
  countedMetas : Nat := 0

namespace Run

variable {F E S : Type} (run : Run F E S)

def pushed (jobs : List (Job F E S)) (last : Bool) (result : Recorder F E S × Bool) :
    Run F E S :=
  if result.2 then
    { run with
      recorder := result.1
      accepted := run.accepted ++ jobs
      lastFrame := run.lastFrame || last }
  else { run with recorder := result.1 }

def after : Call F E S → Run F E S
  | .pushFrame frame => run.pushed [.frame frame] false (run.recorder.pushFrame frame)
  | .pushLastFrame frame => run.pushed [.frame frame] true (run.recorder.pushLastFrame frame)
  | .pushFrameWith frame events last =>
      run.pushed (.frame frame :: events.map Job.event) last
        (run.recorder.pushFrameWith frame events last)
  | .mark event => run.pushed [.event event] false (run.recorder.mark event)
  | .metaEvent event =>
      let result := run.recorder.pushEvent event
      if result.2 then run.pushed [.event event] false result
      else { run with refusedMetas := run.refusedMetas + 1 }
  | .countMeta =>
      if run.refusedMetas = 0 then run
      else { run with
        recorder := run.recorder.countMeta
        refusedMetas := run.refusedMetas - 1
        countedMetas := run.countedMetas + if run.recorder.closed then 0 else 1 }
  | .finish stop =>
      { run with
        recorder := run.recorder.finish stop
        accepted := if run.recorder.closed then run.accepted else run.accepted ++ [.finish stop] }
  | .pop =>
      match run.recorder.pop with
      | (some job, recorder) => { run with recorder, written := run.written ++ [job] }
      | (none, _) => run

def runs : Transition (Run F E S) (Call F E S) where
  initial := fun run => run = {}
  step := fun run call next => next = run.after call

def reaching : List (Job F E S) := run.written ++ run.recorder.jobs

end Run

end Rozi.Recording
