/-
# The calls of the screen in one step

In `Carlinkit.App.VideoPath` a call of the session takes several steps, and the
read thread moves in between.  In `Carlinkit.App.Service` it is one step.  This
module connects the two: what a call is about to do is decided when it begins
(`settled`), and no other step changes that.

`settled_run` is the refinement: after any interleaving the session's fields are
those of the calls alone, one after another, as soon as the last call is over.
-/

import Carlinkit.App.VideoPath
import Carlinkit.App.Service

namespace Carlinkit
namespace App

open Machine VideoPath

/-- The session's fields about the screen. -/
structure Screen where
  surfaceView : Option ℕ
  surfaceReady : Bool
  muted : Bool
  screenTakenByHeadUnit : Bool
deriving DecidableEq, Repr

/-- A whole call, as a change of these fields. -/
def Screen.call (x : Screen) : Call → Screen
  | .attachSurface view => { x with surfaceView := some view }
  | .detachSurface => { x with surfaceView := none, surfaceReady := false, muted := true }
  | .onSurfaceReady => { x with surfaceReady := true, muted := false }
  | .onSurfaceDestroyed => { x with surfaceReady := false }
  | .onScreenTakenByHeadUnit taken => { x with screenTakenByHeadUnit := taken }

namespace Session

/-- What the session knows of the screen. -/
def screen (x : Session) : Screen :=
  ⟨x.surfaceView, x.surfaceReady, x.muted, x.screenTakenByHeadUnit⟩

/-- A call of the session in one step. -/
def call (x : Session) : Call → Session
  | .attachSurface view => x.attachSurface view
  | .detachSurface => x.detachSurface
  | .onSurfaceReady => x.onSurfaceReady
  | .onSurfaceDestroyed => x.onSurfaceDestroyed
  | .onScreenTakenByHeadUnit taken => x.onScreenTakenByHeadUnit taken

theorem screen_call (x : Session) (c : Call) : (x.call c).screen = x.screen.call c := by
  cases c <;> rfl

theorem screen_calls (x : Session) (cs : List Call) :
    (cs.foldl call x).screen = cs.foldl Screen.call x.screen := by
  induction cs generalizing x with
  | nil => rfl
  | cons c cs ih => rw [List.foldl_cons, List.foldl_cons, ih, screen_call]

end Session

namespace VideoPath
namespace State

/-- The session's fields about the screen, as they are. -/
def screen (s : State) : Screen :=
  ⟨s.surfaceView, s.surfaceReady, s.muted, s.screenTakenByHeadUnit⟩

/-- The session's fields about the screen, as they will be when the main thread is
through with its call. -/
def settled (s : State) : Screen :=
  match s.main with
  | .unsetting | .forgetting =>
      { s.screen with surfaceView := none, surfaceReady := false, muted := true }
  | .unreadying => { s.screen with surfaceReady := false, muted := true }
  | .muting => { s.screen with muted := true }
  | .unmuting => { s.screen with muted := false }
  | _ => s.screen

/-- Between two calls what will be is what is. -/
theorem settled_of_idle {s : State} (h : s.main = .idle) : s.settled = s.screen := by
  simp [settled, h]

end State

/-- The call that an event begins. -/
def begun (s : State) : Event → Option Call
  | .call c => if s.main = .idle then some c else none
  | _ => none

/-- The calls that begin along a run. -/
def calls : State → List Event → List Call
  | _, [] => []
  | s, e :: es => (begun s e).toList ++ calls (step s e) es

variable {s : State}

/-- A call settles its outcome with its first step. -/
theorem settled_callStep (h : s.main = .idle) (c : Call) :
    (callStep s c).settled = s.settled.call c := by
  rw [State.settled_of_idle h]
  cases c with
  | onScreenTakenByHeadUnit taken => cases taken <;> rfl
  | _ => rfl

/-- The rest of a call brings what was settled. -/
theorem settled_mainStep (s : State) (o : Started) : (mainStep s o).settled = s.settled := by
  unfold mainStep
  cases hmain : s.main with
  | idle => rfl
  | starting =>
      -- whether or not the decoder starts
      cases hstart : (s.renderer.start s.cache.hasParameterSets o).1 <;>
        simp [State.settled, State.screen, hmain, hstart]
  | _ => simp [State.settled, State.screen, hmain]

/-- The read thread settles nothing. -/
theorem settled_readStep (s : State) (o : Started) (ms : ℕ) :
    (readStep s o ms).settled = s.settled := by
  unfold readStep
  cases s.read <;> rfl

theorem settled_step (s : State) (e : Event) :
    (step s e).settled = (begun s e).toList.foldl Screen.call s.settled := by
  cases e with
  | call c =>
      simp only [step, begun]
      split_ifs with hidle
      · exact settled_callStep hidle c
      · rfl
  | main o => exact settled_mainStep s o
  | frame f =>
      simp only [step, begun]
      split_ifs <;> rfl
  | unplugged =>
      simp only [step, begun]
      split_ifs <;> rfl
  | read o ms => exact settled_readStep s o ms

/-- **The calls are atomic for the screen.**  Over every interleaving of the two threads
and every outcome of every `start`, what the session's fields come to is what the calls
alone make of them, in the order in which they began. -/
theorem settled_run (s : State) (es : List Event) :
    (run step s es).settled = (calls s es).foldl Screen.call s.settled := by
  induction es generalizing s with
  | nil => rfl
  | cons e es ih => rw [run_cons, ih, settled_step, calls, List.foldl_append]

/-- **The session of the service is the session of the threads.**  When both agree and the
main thread is idle before and after, they agree after the same calls. -/
theorem screen_run {x : Session} {es : List Event} (hx : x.screen = s.screen)
    (hbefore : s.main = .idle) (hafter : (run step s es).main = .idle) :
    (run step s es).screen = ((calls s es).foldl Session.call x).screen := by
  rw [← State.settled_of_idle hafter, settled_run, State.settled_of_idle hbefore,
    Session.screen_calls, hx]

end VideoPath
end App
end Carlinkit
