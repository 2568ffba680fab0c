/-
# The buttons that are deduped

`phoneButton`, `endCallButton` and `talkButton` follow one rule: a press within
`KEY_DEDUPE_MS` of the last one does nothing.  Each has a field for its last press, and
`endCallButton` says which presses count: "Marking before knowing the result would let a
failed send eat the press, and the retry inside the dedupe window would do nothing at all."
It marks after the send.  The other two mark before it.

Here the presses come one after the other; `App.PhoneButton` has the routes of one press
side by side.  The clock is `elapsedRealtime`, which counts from the boot and does not go
back.  `fair_iff` says which runs of presses keep the rule.
-/

import Carlinkit.App.PhoneButton

namespace Carlinkit
namespace App
namespace ButtonDedupe

open Machine PhoneButton

/-- `CarlinkitProtocol.Command.SIRI`. -/
def siri : ℕ := 5

/-- The buttons with a dedupe of their own. -/
inductive Button
  | phone
  | endCall
  | talk
deriving DecidableEq, Repr

/-- One press. -/
structure Press where
  button : Button
  /-- The milliseconds since the press before. -/
  elapsed : ℕ
  /-- The session that `phoneButton` looks up, as its `isPhoneCallActive`. -/
  sess : Option Bool
  /-- The session that `sendToDongle` looks up: whether the queue takes the command. -/
  queue : Option Bool
deriving DecidableEq, Repr

/-- What became of a press. -/
inductive Outcome
  | deduped
  | sent (command : ℕ)
  | notSent (command : ℕ)
deriving DecidableEq, Repr

/-- The command was accepted into the queue. -/
def Outcome.Accepted : Outcome → Prop
  | .sent _ => True
  | _ => False

instance : ∀ o : Outcome, Decidable o.Accepted
  | .sent _ => .isTrue trivial
  | .deduped | .notSent _ => .isFalse id

/-- `sendToDongle`. -/
def sendToDongle (queue : Option Bool) : Bool := queue.getD false

/-- The clock, and the fields of the Activity. -/
structure State where
  clock : ℕ
  lastPhoneButtonAt : ℤ
  lastTalkButtonAt : ℤ
  lastEndCallAt : ℤ
  lastScreenStealingCommandAt : ℤ
deriving DecidableEq, Repr

namespace State

/-- A new Activity, at a time of the clock. -/
def created (clock : ℕ) : State := ⟨clock, 0, 0, 0, 0⟩

/-- `phoneButton`. -/
def phoneButton (s : State) (p : Press) : State × Outcome :=
  if dedupe s.clock s.lastPhoneButtonAt then (s, .deduped)
  else
    let marked := { s with lastPhoneButtonAt := s.clock }
    let inCall := p.sess.getD false
    let cmd := if inCall then rejectPhone else acceptPhone
    if sendToDongle p.queue then
      (if inCall then marked else { marked with lastScreenStealingCommandAt := s.clock }, .sent cmd)
    else (marked, .notSent cmd)

/-- `endCallButton`. -/
def endCallButton (s : State) (p : Press) : State × Outcome :=
  if dedupe s.clock s.lastEndCallAt then (s, .deduped)
  else if sendToDongle p.queue then ({ s with lastEndCallAt := s.clock }, .sent rejectPhone)
  else (s, .notSent rejectPhone)

/-- `talkButton`. -/
def talkButton (s : State) (p : Press) : State × Outcome :=
  if dedupe s.clock s.lastTalkButtonAt then (s, .deduped)
  else
    let marked := { s with lastTalkButtonAt := s.clock }
    if sendToDongle p.queue then
      ({ marked with lastScreenStealingCommandAt := s.clock }, .sent siri)
    else (marked, .notSent siri)

/-- The time goes on. -/
def wait (s : State) (elapsed : ℕ) : State := { s with clock := s.clock + elapsed }

/-- The handler of a button. -/
def handle (s : State) (p : Press) : State × Outcome :=
  match p.button with
  | .phone => s.phoneButton p
  | .endCall => s.endCallButton p
  | .talk => s.talkButton p

/-- What a press leaves, and what becomes of it. -/
def press (s : State) (p : Press) : State × Outcome := (s.wait p.elapsed).handle p

/-- One step. -/
def step (s : State) (p : Press) : State := (s.press p).1

/-- The field of a button. -/
def lastAt (s : State) : Button → ℤ
  | .phone => s.lastPhoneButtonAt
  | .endCall => s.lastEndCallAt
  | .talk => s.lastTalkButtonAt

end State

/-- The button marks its press, given what `sendToDongle` answers. -/
def Button.Marks : Button → Bool → Prop
  | .endCall, sent => sent
  | _, _ => True

namespace State

variable {s : State} {p : Press}

@[simp] theorem clock_wait (s : State) (elapsed : ℕ) :
    (s.wait elapsed).clock = s.clock + elapsed := rfl

@[simp] theorem lastAt_wait (s : State) (elapsed : ℕ) (b : Button) :
    (s.wait elapsed).lastAt b = s.lastAt b := by
  cases b <;> rfl

/-- A press that comes too soon does nothing. -/
theorem handle_deduped (h : dedupe s.clock (s.lastAt p.button)) :
    s.handle p = (s, .deduped) := by
  cases hb : p.button <;> rw [hb] at h <;>
    simp only [lastAt] at h <;> simp [handle, hb, phoneButton, endCallButton, talkButton, h]

/-- What a press does that comes late enough. -/
structure Passed (s : State) (p : Press) : Prop where
  answered : (s.handle p).2 ≠ .deduped
  accepted : (s.handle p).2.Accepted ↔ sendToDongle p.queue = true
  marks : p.button.Marks (sendToDongle p.queue) → (s.handle p).1.lastAt p.button = s.clock
  keeps : ¬ p.button.Marks (sendToDongle p.queue) →
    (s.handle p).1.lastAt p.button = s.lastAt p.button

theorem handle_passed (h : ¬ dedupe s.clock (s.lastAt p.button)) : s.Passed p := by
  cases hb : p.button <;> rw [hb] at h <;> simp only [lastAt] at h <;>
    cases hsend : sendToDongle p.queue <;> constructor <;>
    simp [handle, hb, phoneButton, endCallButton, talkButton, h, hsend, Button.Marks, lastAt,
      Outcome.Accepted]
  -- what is left is an accepted press of the phone button, which arms the guard or not
  split_ifs <;> rfl

@[simp] theorem clock_handle (s : State) (p : Press) : (s.handle p).1.clock = s.clock := by
  simp only [handle, phoneButton, endCallButton, talkButton]
  split <;> split_ifs <;> rfl

/-- The other buttons. -/
theorem lastAt_handle_of_ne {b : Button} (h : b ≠ p.button) :
    (s.handle p).1.lastAt b = s.lastAt b := by
  cases hb : p.button <;> rw [hb] at h <;>
    simp only [handle, hb, phoneButton, endCallButton, talkButton] <;>
    split_ifs <;> cases b <;> first | rfl | exact absurd rfl h

/-- The time of a press. -/
def now (s : State) (p : Press) : ℤ := s.clock + p.elapsed

@[simp] theorem clock_step (s : State) (p : Press) : ((s.step p).clock : ℤ) = s.now p := by
  simp [step, press, now]

/-- A press that comes too soon. -/
theorem press_deduped (h : dedupe (s.now p) (s.lastAt p.button)) :
    s.press p = (s.wait p.elapsed, .deduped) :=
  handle_deduped (by simpa [now] using h)

/-- A press that comes late enough. -/
theorem press_passed (h : ¬ dedupe (s.now p) (s.lastAt p.button)) :
    (s.wait p.elapsed).Passed p :=
  handle_passed (by simpa [now] using h)

/-- The presses that were accepted so far, each with its time, are kept beside the state. -/
def see (s : State) (taken : List (Button × ℤ)) (p : Press) : List (Button × ℤ) :=
  if (s.press p).2.Accepted then taken ++ [(p.button, s.now p)] else taken

/-- **The rule.**  A press that is not accepted leaves its field as it was, and one that is
suppressed comes less than `KEY_DEDUPE_MS` after a press of its button that was accepted. -/
def Fair (x : State × List (Button × ℤ)) (p : Press) : Prop :=
  (¬ (x.1.press p).2.Accepted → (x.1.step p).lastAt p.button = x.1.lastAt p.button) ∧
  ((x.1.press p).2 = .deduped →
    ∃ taken ∈ x.2, taken.1 = p.button ∧ x.1.now p - taken.2 < keyDedupeMs)

/-- The press comes `KEY_DEDUPE_MS` after the boot or later, and if it is a press of the phone
or the talk button that passes the test, its command is accepted. -/
def Heard (s : State) (p : Press) : Prop :=
  keyDedupeMs ≤ s.now p ∧
  (p.button ≠ .endCall → ¬ dedupe (s.now p) (s.lastAt p.button) → sendToDongle p.queue = true)

/-- A field is zero, or it holds the time of a press that was accepted. -/
structure Known (x : State × List (Button × ℤ)) : Prop where
  past : ∀ b t, (b, t) ∈ x.2 → keyDedupeMs ≤ t ∧ t ≤ x.1.clock
  last : ∀ b, x.1.lastAt b = 0 ∨ (b, x.1.lastAt b) ∈ x.2

theorem known_created (clock : ℕ) : Known (created clock, []) where
  past b t h := absurd h (by simp)
  last b := .inl (by cases b <;> rfl)

variable {x : State × List (Button × ℤ)}

theorem Known.lastAt_nonneg (h : Known x) (b : Button) : 0 ≤ x.1.lastAt b := by
  rcases h.last b with hzero | hmem
  · exact hzero.ge
  · have hpast := (h.past b _ hmem).1
    simp only [keyDedupeMs] at hpast
    omega

/-- A press that comes too soon comes soon after one that was accepted, or after the boot. -/
theorem Known.fair_deduped (h : Known x) (hsoon : dedupe (x.1.now p) (x.1.lastAt p.button)) :
    Fair x p ↔ Heard x.1 p := by
  have hpress := press_deduped hsoon
  constructor
  · rintro ⟨-, hreason⟩
    obtain ⟨⟨b, t⟩, hmem, -⟩ := hreason (by rw [hpress])
    obtain ⟨hboot, hpast⟩ := h.past b t hmem
    refine ⟨?_, fun _ hlate => absurd hsoon hlate⟩
    simp only [now]
    omega
  · rintro ⟨hboot, -⟩
    simp only [dedupe, decide_eq_true_eq] at hsoon
    refine ⟨fun _ => by simp [step, hpress], fun _ => ?_⟩
    rcases h.last p.button with hzero | hmem
    · omega
    · exact ⟨_, hmem, rfl, hsoon⟩

/-- A press that passes is marked, and it has to be accepted for that. -/
theorem Known.fair_passed (h : Known x) (hlate : ¬ dedupe (x.1.now p) (x.1.lastAt p.button)) :
    Fair x p ↔ Heard x.1 p := by
  have hpassed := press_passed hlate
  have hnonneg := h.lastAt_nonneg p.button
  have hspan : keyDedupeMs ≤ x.1.now p - x.1.lastAt p.button := by simpa [dedupe] using hlate
  constructor
  · rintro ⟨hkeeps, -⟩
    refine ⟨by omega, fun hbutton _ => ?_⟩
    by_contra hrefused
    have hsame := hkeeps (mt hpassed.accepted.1 hrefused)
    have hmarks : p.button.Marks (sendToDongle p.queue) := by
      cases hb : p.button with
      | endCall => exact absurd hb hbutton
      | phone | talk => trivial
    have hmark : (x.1.step p).lastAt p.button = x.1.now p := hpassed.marks hmarks
    simp only [keyDedupeMs] at hspan
    omega
  · rintro ⟨-, hsent⟩
    refine ⟨fun hnot => ?_, fun hdeduped => absurd hdeduped hpassed.answered⟩
    have hrefused : ¬ sendToDongle p.queue = true := mt hpassed.accepted.2 hnot
    have hbutton : p.button = .endCall := by
      by_contra hbutton
      exact hrefused (hsent hbutton hlate)
    have hkeeps := hpassed.keeps (by rw [hbutton]; exact hrefused)
    rwa [lastAt_wait] at hkeeps

/-- **One press keeps the rule exactly when it is heard.** -/
theorem Known.fair (h : Known x) : Fair x p ↔ Heard x.1 p := by
  by_cases hdedupe : dedupe (x.1.now p) (x.1.lastAt p.button)
  · exact h.fair_deduped hdedupe
  · exact h.fair_passed hdedupe

/-- A press that is accepted is marked. -/
theorem lastAt_step_of_accepted (h : (s.press p).2.Accepted) :
    (s.step p).lastAt p.button = s.now p ∧ keyDedupeMs ≤ s.now p - s.lastAt p.button := by
  by_cases hdedupe : dedupe (s.now p) (s.lastAt p.button)
  · rw [press_deduped hdedupe] at h
    exact h.elim
  · have hpassed := press_passed hdedupe
    have hsent := hpassed.accepted.1 h
    refine ⟨hpassed.marks ?_, by simpa [dedupe] using hdedupe⟩
    cases p.button with
    | endCall => exact hsent
    | phone | talk => trivial

/-- Each field is still known after a press that is heard. -/
theorem Known.step (h : Known x) (hheard : Heard x.1 p) : Known (watched step see x p) := by
  have hclock : (x.1.clock : ℤ) ≤ x.1.now p := by simp only [now]; omega
  have hothers : ∀ b ≠ p.button, (x.1.step p).lastAt b = x.1.lastAt b := fun b hb => by
    rw [State.step, press, lastAt_handle_of_ne hb, lastAt_wait]
  by_cases haccepted : (x.1.press p).2.Accepted
  · obtain ⟨hmark, -⟩ := lastAt_step_of_accepted haccepted
    have hsee : see x.1 x.2 p = x.2 ++ [(p.button, x.1.now p)] := if_pos haccepted
    refine ⟨fun b t hmem => ?_, fun b => ?_⟩
    · simp only [watched, hsee, List.mem_append, List.mem_singleton, Prod.mk.injEq] at hmem
      simp only [watched, clock_step]
      rcases hmem with hmem | ⟨-, rfl⟩
      · exact ⟨(h.past b t hmem).1, (h.past b t hmem).2.trans hclock⟩
      · exact ⟨hheard.1, le_rfl⟩
    · simp only [watched, hsee]
      by_cases hb : b = p.button
      · right
        rw [hb, hmark]
        simp
      · rw [hothers b hb]
        exact (h.last b).imp_right fun hmem => List.mem_append_left _ hmem
  · have hsame := (h.fair.2 hheard).1 haccepted
    have hsee : see x.1 x.2 p = x.2 := if_neg haccepted
    refine ⟨fun b t hmem => ?_, fun b => ?_⟩
    · simp only [watched, hsee] at hmem
      simp only [watched, clock_step]
      exact ⟨(h.past b t hmem).1, (h.past b t hmem).2.trans hclock⟩
    · simp only [watched, hsee]
      by_cases hb : b = p.button
      · rw [hb, hsame]
        exact h.last _
      · rw [hothers b hb]
        exact h.last b

/-- **Which presses are suppressed.**  In a run of presses of the three buttons, at any times
and with any sends refused, every press that is not accepted leaves its field as it was and
every press that is suppressed follows one that was accepted, exactly when all come
`KEY_DEDUPE_MS` after the boot and no press of the phone or the talk button that passes the
test is refused. -/
theorem fair_iff (clock : ℕ) (ps : List Press) :
    Along (watched step see) Fair (created clock, []) ps ↔
      Along step Heard (created clock) ps := by
  rw [← along_watched see (created clock, [])]
  exact along_iff_of_invariant (fun x p h => h.fair) (fun x p h => h.step) (known_created clock) ps

instance (x : State × List (Button × ℤ)) (p : Press) : Decidable (Fair x p) :=
  inferInstanceAs (Decidable ((_ → _ = _) ∧ (_ = _ → ∃ taken ∈ x.2, _ = _ ∧ _ < _)))

/-- The talk button before the session is up, and again when it is. -/
def early : List Press :=
  [⟨.talk, 60000, none, none⟩, ⟨.talk, 300, some false, some true⟩]

/-- **The second press is eaten**, and no press of the button was ever accepted. -/
theorem not_fair_early :
    ((run step (created 0) (early.take 1)).press ⟨.talk, 300, some false, some true⟩).2 =
      .deduped ∧
    ¬ ∀ (clock : ℕ) (ps : List Press), Along (watched step see) Fair (created clock, []) ps := by
  refine ⟨by decide, fun h => ?_⟩
  have hfair := h 0 early
  exact absurd hfair (by decide)

/-- The end-call button does keep the rule: its refused presses may be repeated at once. -/
theorem endCall_fair {clock : ℕ} (hboot : keyDedupeMs ≤ clock) {ps : List Press}
    (h : ∀ p ∈ ps, p.button = .endCall) :
    Along (watched step see) Fair (created clock, []) ps := by
  have hheard : ∀ (x : State × List (Button × ℤ)) (p : Press), keyDedupeMs ≤ x.1.clock →
      p.button = .endCall → Heard x.1 p := fun x p hclock hp => by
    refine ⟨?_, fun hne => absurd hp hne⟩
    simp only [now]
    omega
  refine (along_of_forall_mem h _).imp_of_invariant
    (I := fun x => Known x ∧ keyDedupeMs ≤ x.1.clock) (fun x p hx hp => ?_)
    (fun x p hx hp => hx.1.fair.2 (hheard x p hx.2 hp)) ⟨known_created clock, hboot⟩
  refine ⟨hx.1.step (hheard x p hx.2 hp), ?_⟩
  simp only [watched, clock_step, now]
  omega

end State
end ButtonDedupe
end App
end Carlinkit
