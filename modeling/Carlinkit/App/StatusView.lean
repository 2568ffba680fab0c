/-
# The status text goes when the picture comes

`CarlinkitActivity` shows its status over the screen until the phone has connected: "in the
first test the 'phone found' message arrived after the connection and stayed pinned over the
image".  `setStatus` asks `phoneConnected` twice, on its own thread and again in the `Runnable`
on the main thread, and `hideStatus` does not ask.  A read thread delivers a phone event in two
steps, the write of `phoneConnected` and the call; `runOnUiThread` keeps the order of the posts
and runs what the main thread itself posts at once.

`visible_iff` says that once all is delivered and run the text is there exactly when there is no
phone, in any order of the threads, if one thread delivers the phone events.  Without that it is
still gone when there is a phone (`last_visible`), but a connection that a disconnection has
overtaken hides the text of the disconnection.

`statusView` is there from `onCreate` on, and starts visible.  Its clicks are left out.
-/

import Carlinkit.Machine.Run
import Mathlib.Logic.Function.Basic

namespace Carlinkit
namespace App
namespace StatusView

open Machine

/-- A `Runnable` of `setStatus` or of `hideStatus`. -/
inductive Runnable
  | setStatus (text : String)
  | hideStatus
deriving DecidableEq, Repr

/-- Where a thread is. -/
inductive Phase
  | idle
  /-- In `onPhoneConnected`, before `hideStatus`. -/
  | hide
  /-- In `setStatus`, before `if (phoneConnected)`. -/
  | check (text : String)
  /-- In `setStatus`, before `runOnUiThread`. -/
  | post (text : String)
deriving DecidableEq, Repr

/-- The view, the queue of the main thread, and the other threads. -/
structure State where
  phoneConnected : Bool
  visible : Bool
  text : String
  /-- The runnables that were posted and not run. -/
  posted : List Runnable
  /-- The runnables that were run, the last one last. -/
  ran : List Runnable
  phase : ℕ → Phase

inductive Event
  /-- `onPhoneConnected`. -/
  | connected (thread : ℕ)
  /-- `onPhoneDisconnected`. -/
  | disconnected (thread : ℕ)
  /-- `onStatus`. -/
  | status (thread : ℕ) (text : String)
  /-- The thread goes on. -/
  | go (thread : ℕ)
  /-- `setStatus` on the main thread. -/
  | statusMain (text : String)
  /-- The main thread runs what was posted first. -/
  | runPosted
deriving DecidableEq, Repr

/-- The event is no phone event of another thread than `reader`. -/
def Event.From (reader : ℕ) : Event → Prop
  | .connected thread | .disconnected thread => thread = reader
  | _ => True

namespace State

/-- After `setContentView`. -/
def start : State := ⟨false, true, "", [], [], fun _ => .idle⟩

def setPhase (thread : ℕ) (p : Phase) (x : State) : State :=
  { x with phase := Function.update x.phase thread p }

/-- `Runnable.run`. -/
def exec (r : Runnable) (x : State) : State :=
  match r with
  | .setStatus text =>
      if x.phoneConnected = false then
        { x with text := text, visible := true, ran := x.ran ++ [r] }
      else { x with ran := x.ran ++ [r] }
  | .hideStatus => { x with visible := false, ran := x.ran ++ [r] }

/-- One event; a thread takes the next call when it is back from the last one. -/
def step (x : State) : Event → State
  | .connected thread =>
      match x.phase thread with
      | .idle => setPhase thread .hide { x with phoneConnected := true }
      | _ => x
  | .disconnected thread =>
      match x.phase thread with
      | .idle =>
          setPhase thread (.check "phone disconnected") { x with phoneConnected := false }
      | _ => x
  | .status thread text =>
      match x.phase thread with
      | .idle => x.setPhase thread (.check text)
      | _ => x
  | .go thread =>
      match x.phase thread with
      | .idle => x
      | .hide => setPhase thread .idle { x with posted := x.posted ++ [.hideStatus] }
      | .check text =>
          if x.phoneConnected = true then x.setPhase thread .idle
          else x.setPhase thread (.post text)
      | .post text => setPhase thread .idle { x with posted := x.posted ++ [.setStatus text] }
  | .statusMain text => if x.phoneConnected = true then x else x.exec (.setStatus text)
  | .runPosted =>
      match x.posted with
      | [] => x
      | r :: rs => exec r { x with posted := rs }

/-- All is delivered and run. -/
def Quiet (x : State) : Prop := x.posted = [] ∧ ∀ thread, x.phase thread = .idle

/-! ### What the queue comes to -/

/-- What a runnable makes of the view. -/
def turn (phoneConnected visible : Bool) : Runnable → Bool
  | .setStatus _ => visible || !phoneConnected
  | .hideStatus => false

/-- What the view comes to when the queue is run. -/
def final (x : State) : Bool := x.posted.foldl (turn x.phoneConnected) x.visible

/-- The runnables in the order of their runs. -/
def order (x : State) : List Runnable := x.ran ++ x.posted

/-- A thread is in `setStatus`. -/
def Setting (x : State) : Prop :=
  ∃ thread text, x.phase thread = .check text ∨ x.phase thread = .post text

/-- With a phone the text goes, unless a `hideStatus` is under way.  Without one the last
runnable decides, unless a `setStatus` is. -/
structure Settles (x : State) : Prop where
  gone : x.phoneConnected = true → x.final = false ∨ ∃ thread, x.phase thread = .hide
  there : x.phoneConnected = false →
    (x.final = true ↔ x.order.getLast? ≠ some .hideStatus) ∨ x.Setting

variable {x : State} {thread : ℕ} {p : Phase}

theorem settles_start : start.Settles :=
  ⟨(nomatch ·), fun _ => .inl ⟨fun _ => nofun, fun _ => rfl⟩⟩

theorem exec_eq (r : Runnable) (x : State) :
    x.exec r = { x with
      text := (x.exec r).text, visible := turn x.phoneConnected x.visible r,
      ran := x.ran ++ [r] } := by
  cases r with
  | setStatus text =>
      unfold exec turn
      split_ifs with h <;> simp [h]
  | hideStatus => rfl

/-- With a phone a `setStatus` leaves the view as it is. -/
theorem turn_connected {r : Runnable} (h : r ≠ .hideStatus) (visible : Bool) :
    turn true visible r = visible := by
  cases r with
  | setStatus text => simp [turn]
  | hideStatus => exact absurd rfl h

/-- Without a phone a runnable decides alone. -/
theorem turn_disconnected (visible : Bool) (r : Runnable) :
    turn false visible r = decide (r ≠ .hideStatus) := by
  cases r <;> simp [turn]

theorem final_post (x : State) (r : Runnable) :
    final { x with posted := x.posted ++ [r] } = turn x.phoneConnected x.final r :=
  List.foldl_concat ..

theorem final_eq_of_posted_nil (h : x.posted = []) : x.final = x.visible := by
  rw [final, h, List.foldl_nil]

theorem phase_self : (x.setPhase thread p).phase thread = p := Function.update_self ..

theorem phase_other {t : ℕ} (h : t ≠ thread) : (x.setPhase thread p).phase t = x.phase t :=
  Function.update_of_ne h ..

/-- What another thread is about to do, it still is. -/
theorem phase_of_ne {t : ℕ} (h : x.phase thread ≠ x.phase t) :
    (x.setPhase thread p).phase t = x.phase t :=
  phase_other fun ht => h (congrArg x.phase ht.symm)

theorem settles_connected (x : State) (thread : ℕ) :
    (setPhase thread .hide { x with phoneConnected := true }).Settles :=
  ⟨fun _ => .inr ⟨thread, phase_self⟩, (nomatch ·)⟩

theorem settles_disconnected (x : State) (thread : ℕ) (text : String) :
    (setPhase thread (.check text) { x with phoneConnected := false }).Settles :=
  ⟨(nomatch ·), fun _ => .inr ⟨thread, text, .inl phase_self⟩⟩

/-- A thread comes into `setStatus`, or goes on in it. -/
theorem Settles.setting (h : x.Settles) (text : String) (hphase : x.phase thread ≠ .hide)
    (hp : p = .check text ∨ p = .post text ∨ x.phoneConnected = true) :
    (x.setPhase thread p).Settles := by
  refine ⟨fun hc => ?_, fun hc => ?_⟩
  · rcases h.gone hc with hfinal | ⟨t, ht⟩
    · exact .inl hfinal
    · exact .inr ⟨t, (phase_of_ne (ht ▸ hphase)).trans ht⟩
  · right
    rcases hp with rfl | rfl | hyes
    · exact ⟨thread, text, .inl phase_self⟩
    · exact ⟨thread, text, .inr phase_self⟩
    · exact absurd (hc.symm.trans hyes) Bool.false_ne_true

/-- A thread posts its runnable. -/
theorem Settles.post {r : Runnable} (h : x.Settles)
    (hr : r = .hideStatus ∨ x.phase thread ≠ .hide) :
    Settles (setPhase thread .idle { x with posted := x.posted ++ [r] }) := by
  have hfinal : final (setPhase thread .idle { x with posted := x.posted ++ [r] }) =
      turn x.phoneConnected x.final r := final_post x r
  have horder : order (setPhase thread .idle { x with posted := x.posted ++ [r] }) =
      x.order ++ [r] := (List.append_assoc ..).symm
  refine ⟨fun hc => ?_, fun hc => .inl ?_⟩
  · have hyes : x.phoneConnected = true := hc
    rw [hfinal, hyes]
    by_cases hhide : r = .hideStatus
    · rw [hhide]
      exact .inl rfl
    · rw [turn_connected hhide]
      rcases h.gone hyes with hgone | ⟨t, ht⟩
      · exact .inl hgone
      · exact .inr ⟨t, (phase_of_ne (ht ▸ hr.resolve_left hhide)).trans ht⟩
  · have hno : x.phoneConnected = false := hc
    rw [hfinal, horder, hno, turn_disconnected, List.getLast?_concat, decide_eq_true_iff]
    exact not_congr (Option.some_inj).symm

/-- The main thread runs the first runnable. -/
theorem Settles.runPosted (h : x.Settles) {r : Runnable} {rs : List Runnable}
    (hposted : x.posted = r :: rs) : (exec r { x with posted := rs }).Settles := by
  have hfinal : final (exec r { x with posted := rs }) = x.final := by
    rw [exec_eq, final, final, hposted, List.foldl_cons]
  have horder : order (exec r { x with posted := rs }) = x.order := by
    rw [exec_eq, order, order, hposted]
    exact List.append_assoc ..
  constructor
  · rw [hfinal, exec_eq]
    exact h.gone
  · rw [hfinal, horder, Setting, exec_eq]
    exact h.there

/-- `setStatus` on the main thread comes before all that is posted. -/
theorem settles_statusMain (hno : x.phoneConnected = false) (text : String) :
    (x.exec (.setStatus text)).Settles := by
  rw [exec_eq]
  refine ⟨fun hyes => absurd (hno.symm.trans hyes) Bool.false_ne_true, fun _ => .inl ?_⟩
  rw [final, order, hno]
  rcases List.eq_nil_or_concat x.posted with hnil | ⟨rs, r, hposted⟩
  · simp [hnil, turn]
  · rw [hposted, List.concat_eq_append, List.foldl_concat, turn_disconnected, ← List.append_assoc,
      List.getLast?_concat, decide_eq_true_iff]
    exact not_congr (Option.some_inj).symm

theorem Settles.step (h : x.Settles) (e : Event) : (x.step e).Settles := by
  cases e with
  | connected thread =>
      cases hphase : x.phase thread <;> simp only [State.step, hphase]
      · exact settles_connected x thread
      all_goals exact h
  | disconnected thread =>
      cases hphase : x.phase thread <;> simp only [State.step, hphase]
      · exact settles_disconnected x thread _
      all_goals exact h
  | status thread text =>
      cases hphase : x.phase thread <;> simp only [State.step, hphase]
      · exact h.setting text (by simp [hphase]) (.inl rfl)
      all_goals exact h
  | go thread =>
      cases hphase : x.phase thread with
      | idle =>
          simp only [State.step, hphase]
          exact h
      | hide =>
          simp only [State.step, hphase]
          exact h.post (.inl rfl)
      | check text =>
          have hnot : x.phase thread ≠ .hide := by simp [hphase]
          simp only [State.step, hphase]
          split_ifs with hc
          · exact h.setting text hnot (.inr (.inr hc))
          · exact h.setting text hnot (.inr (.inl rfl))
      | post text =>
          simp only [State.step, hphase]
          exact h.post (.inr (by simp [hphase]))
  | statusMain text =>
      simp only [State.step]
      split_ifs with hc
      · exact h
      · exact settles_statusMain (Bool.not_eq_true _ ▸ hc) text
  | runPosted =>
      cases hposted : x.posted <;> simp only [State.step, hposted]
      · exact h
      · exact h.runPosted hposted

theorem settles_run (es : List Event) : (run step start es).Settles :=
  run_invariant (I := Settles) (fun _ e h => h.step e) settles_start es

/-- With any number of threads that deliver, the text is there exactly when there is no phone and
the last runnable was not the `hideStatus` of a connection. -/
theorem last_visible (es : List Event) (hquiet : (run step start es).Quiet) :
    let x := run step start es
    x.visible = true ↔ x.phoneConnected = false ∧ x.ran.getLast? ≠ some .hideStatus := by
  intro x
  obtain ⟨hposted, hidle⟩ := hquiet
  have h : x.Settles := settles_run es
  have hfinal : x.final = x.visible := final_eq_of_posted_nil hposted
  have horder : x.order = x.ran := by rw [order, hposted, List.append_nil]
  cases hc : x.phoneConnected with
  | true =>
      rcases h.gone hc with hgone | ⟨t, ht⟩
      · simp [← hfinal, hgone]
      · exact absurd ((hidle t).symm.trans ht) (by decide)
  | false =>
      rcases h.there hc with hlast | ⟨t, text, ht⟩
      · rw [← hfinal, hlast, horder]
        simp
      · rw [hidle t] at ht
        rcases ht with ht | ht <;> cases ht

/-! ### One thread that delivers -/

/-- No disconnection overtakes a connection. -/
structure Single (reader : ℕ) (x : State) : Prop where
  hide : ∀ thread, x.phase thread = .hide → thread = reader ∧ x.phoneConnected = true
  last : x.phoneConnected = false → x.order.getLast? = some .hideStatus →
    ∃ text, x.phase reader = .check text ∨ x.phase reader = .post text

variable {reader : ℕ}

theorem single_start (reader : ℕ) : Single reader start :=
  ⟨fun _ => nofun, fun _ => nofun⟩

theorem Single.connected (h : x.Single reader) :
    Single reader (setPhase reader .hide { x with phoneConnected := true }) := by
  refine ⟨fun t ht => ⟨?_, rfl⟩, (nomatch ·)⟩
  by_contra hne
  have hphase : x.phase t = .hide := (phase_other hne).symm.trans ht
  exact hne (h.hide t hphase).1

theorem Single.disconnected (h : x.Single reader) (text : String) :
    Single reader (setPhase reader (.check text) { x with phoneConnected := false }) := by
  refine ⟨fun t ht => ?_, fun _ _ => ⟨text, .inl phase_self⟩⟩
  by_cases htr : t = reader
  · rw [htr, phase_self] at ht
    cases ht
  · have hphase : x.phase t = .hide := (phase_other htr).symm.trans ht
    exact absurd (h.hide t hphase).1 htr

/-- A thread comes into `setStatus`, or goes on in it. -/
theorem Single.setting (h : x.Single reader) (text : String)
    (hp : p = .check text ∨ p = .post text ∨ x.phoneConnected = true ∧ p = .idle) :
    Single reader (x.setPhase thread p) := by
  refine ⟨fun t ht => ?_, fun hno hlast => ?_⟩
  · by_cases htt : t = thread
    · rw [htt, phase_self] at ht
      simp [ht] at hp
    · exact h.hide t ((phase_other htt).symm.trans ht)
  · by_cases htr : reader = thread
    · rcases hp with rfl | rfl | ⟨hyes, -⟩
      · exact ⟨text, .inl (htr ▸ phase_self)⟩
      · exact ⟨text, .inr (htr ▸ phase_self)⟩
      · exact absurd (hno.symm.trans hyes) Bool.false_ne_true
    · obtain ⟨text', htext⟩ := h.last hno hlast
      exact ⟨text', (phase_other htr).symm ▸ htext⟩

/-- A `hideStatus` is posted while there is a phone; the text comes after. -/
theorem Single.post {r : Runnable} (h : x.Single reader)
    (hr : x.phase thread = .hide ∨ r ≠ .hideStatus) :
    Single reader (setPhase thread .idle { x with posted := x.posted ++ [r] }) := by
  refine ⟨fun t ht => ?_, fun hno hlast => ?_⟩
  · by_cases htt : t = thread
    · rw [htt, phase_self] at ht
      cases ht
    · exact h.hide t ((phase_other htt).symm.trans ht)
  · have hno' : x.phoneConnected = false := hno
    have horder : order (setPhase thread .idle { x with posted := x.posted ++ [r] }) =
      x.order ++ [r] := (List.append_assoc ..).symm
    rw [horder, List.getLast?_concat] at hlast
    rcases hr with hhide | hne
    · exact absurd (hno'.symm.trans (h.hide thread hhide).2) Bool.false_ne_true
    · exact absurd (Option.some.inj hlast) hne

/-- What the main thread runs puts no `hideStatus` last. -/
theorem Single.exec (h : x.Single reader) {r : Runnable} {rs : List Runnable}
    (hlast : (x.ran ++ [r] ++ rs).getLast? = some .hideStatus →
      x.order.getLast? = some .hideStatus) :
    Single reader (exec r { x with posted := rs }) := by
  rw [exec_eq]
  exact ⟨h.hide, fun hno ho => h.last hno (hlast ho)⟩

theorem Single.step (h : x.Single reader) {e : Event} (he : e.From reader) :
    Single reader (x.step e) := by
  cases e with
  | connected thread =>
      obtain rfl : thread = reader := he
      cases hphase : x.phase thread <;> simp only [State.step, hphase]
      · exact h.connected
      all_goals exact h
  | disconnected thread =>
      obtain rfl : thread = reader := he
      cases hphase : x.phase thread <;> simp only [State.step, hphase]
      · exact h.disconnected _
      all_goals exact h
  | status thread text =>
      cases hphase : x.phase thread <;> simp only [State.step, hphase]
      · exact h.setting text (.inl rfl)
      all_goals exact h
  | go thread =>
      cases hphase : x.phase thread with
      | idle =>
          simp only [State.step, hphase]
          exact h
      | hide =>
          simp only [State.step, hphase]
          exact h.post (.inl hphase)
      | check text =>
          simp only [State.step, hphase]
          split_ifs with hc
          · exact h.setting text (.inr (.inr ⟨hc, rfl⟩))
          · exact h.setting text (.inr (.inl rfl))
      | post text =>
          simp only [State.step, hphase]
          exact h.post (.inr nofun)
  | statusMain text =>
      simp only [State.step]
      split_ifs with hc
      · exact h
      · refine h.exec fun hlast => ?_
        rcases List.eq_nil_or_concat x.posted with hnil | ⟨rs, r, hposted⟩
        · simp [hnil] at hlast
        · rw [order, hposted, List.concat_eq_append, ← List.append_assoc, List.getLast?_concat]
          rwa [hposted, List.concat_eq_append, ← List.append_assoc, List.getLast?_concat] at hlast
  | runPosted =>
      cases hposted : x.posted with
      | nil =>
          simp only [State.step, hposted]
          exact h
      | cons r rs =>
          simp only [State.step, hposted]
          refine h.exec fun hlast => ?_
          rwa [order, hposted, List.append_cons]

/-- **The text is there exactly when there is no phone**, once all is delivered and run, if one
thread delivers the phone events. -/
theorem visible_iff (reader : ℕ) (es : List Event) (hreader : ∀ e ∈ es, e.From reader)
    (hquiet : (run step start es).Quiet) :
    (run step start es).visible = true ↔ (run step start es).phoneConnected = false := by
  have hsingle : Single reader (run step start es) :=
    (along_of_forall_mem hreader start).invariant (I := Single reader)
      (fun _ e h he => h.step he) (single_start reader)
  refine (last_visible es hquiet).trans (and_iff_left_of_imp fun hno hlast => ?_)
  have horder : (run step start es).order = (run step start es).ran := by
    rw [order, hquiet.1, List.append_nil]
  obtain ⟨text, htext⟩ := hsingle.last hno (horder ▸ hlast)
  rw [hquiet.2] at htext
  rcases htext with htext | htext <;> cases htext

/-- The phone connects before its status is shown, and goes away again. -/
def goesAway : List Event :=
  [.status 0 "phone found", .go 0, .go 0, .connected 0, .runPosted, .go 0, .runPosted,
    .disconnected 0, .go 0, .go 0, .runPosted]

theorem visible_iff_goesAway :
    (run step start goesAway).visible = true ∧ (run step start goesAway).ran =
      [.setStatus "phone found", .hideStatus, .setStatus "phone disconnected"] := by
  have hquiet : (run step start goesAway).Quiet := by
    refine ⟨by decide, fun thread => ?_⟩
    simp [goesAway, step, start, setPhase, exec]
  exact ⟨(visible_iff 0 goesAway (by simp [goesAway, Event.From]) hquiet).2 (by decide),
    by decide⟩

end State
end StatusView
end App
end Carlinkit
