/-
# The heartbeat of the session

`sessionHeartbeat` posts itself again as long as the session is open and the user has
not left; otherwise its chain ends.  `openDevice` begins a chain, and two other ways lead
back to an open session without one: `onServiceConnected` finds a session that is active
already, and `onResume` and `onNewIntent` come back to a session that stayed open while
the user was away and the last beat ran.

`beating_iff` says that these are all: in use, exactly one beat is pending, as long as a
beat is still pending wherever use begins again in one of the two ways.
-/

import Carlinkit.App.Reopening

namespace Carlinkit
namespace App
namespace State

open Machine

/-- In use there is exactly one beat to come. -/
def Beating (s : State) : Prop :=
  s.activity.sessionStarted = true → s.activity.userLeft = false →
    s.activity.posted.heartbeats = 1

instance (s : State) : Decidable s.Beating := inferInstanceAs (Decidable (_ → _ → _))

/-- Where use begins again without `openDevice`, a beat is still pending. -/
def StillBeats (s : State) : Event → Prop
  | .onServiceConnected _ _ =>
      s.activity.created = true → s.service.isStarted = true → s.activity.userLeft = false →
        0 < s.activity.posted.heartbeats
  | .onResume _ _ | .onNewIntent =>
      s.activity.created = true → s.activity.sessionStarted = true →
        0 < s.activity.posted.heartbeats
  | _ => True

instance (s : State) : ∀ e, Decidable (s.StillBeats e)
  | .onServiceConnected .. => inferInstanceAs (Decidable (_ → _ → _ → _))
  | .onResume .. => inferInstanceAs (Decidable (_ → _ → _))
  | .onNewIntent => inferInstanceAs (Decidable (_ → _ → _))
  | .onCreate | .onServiceDisconnected | .usbPermission .. | .deviceDetached ..
  | .deviceAttached .. | .layout .. | .surfaceCreated | .surfaceChanged .. | .surfaceDestroyed
  | .onUserLeaveHint _ | .onBackPressed .. | .onWindowFocusChanged _ | .onStatusClick _
  | .onDestroy | .runSearch .. | .runReconnect .. | .runPermissionRetry .. | .runMuteCheck
  | .runHeartbeat | .stop | .serviceDeviceAttached .. | .serviceOnDestroy | .received =>
      .isTrue trivial

/-- The beat of the session, with no second chain beside it. -/
structure Paced (a : Activity) : Prop where
  beating : a.sessionStarted = true → a.userLeft = false → a.posted.heartbeats = 1
  one : a.posted.heartbeats ≤ 1

variable {s : State} {a b : Activity}

/-- A search or an opening leaves the beats as they are, or begins a chain. -/
theorem Tries.paced {t : State} (h : Tries s t) (ha : Paced s.activity) : Paced t.activity := by
  rcases h.beats with ⟨hstarted, hbeats⟩ | hone
  · exact ⟨hstarted ▸ h.steady.userLeft ▸ hbeats ▸ ha.beating, hbeats ▸ ha.one⟩
  · exact ⟨fun _ _ => hone, Nat.le_of_eq hone⟩

/-- Not in use there may be a beat left over. -/
theorem Paced.idle (ha : Paced a) (hbeats : b.posted.heartbeats ≤ a.posted.heartbeats)
    (hidle : b.sessionStarted = true → b.userLeft = false → False) : Paced b :=
  ⟨fun hstarted hleft => (hidle hstarted hleft).elim, Nat.le_trans hbeats ha.one⟩

/-- Without its Surface the Activity has no session and no beat. -/
theorem paced_releaseSurface (s : State) : Paced s.releaseSurface.activity :=
  ⟨fun hstarted => Bool.noConfusion hstarted, Nat.zero_le 1⟩

theorem paced_deviceDetached (now : ℕ) (s : State) : Paced (deviceDetached now s).activity := by
  unfold deviceDetached scheduleDongleReconnect
  dsimp only
  split_ifs <;> exact ⟨fun hstarted => Bool.noConfusion hstarted, Nat.zero_le 1⟩

theorem paced_onBackPressed (ha : Paced s.activity) (now : ℕ) (inCall : Bool) :
    Paced (onBackPressed now inCall s).activity := by
  unfold onBackPressed
  split_ifs
  · exact ha
  · exact ⟨ha.beating, ha.one⟩
  · exact paced_releaseSurface _

theorem paced_onResume (ha : Paced s.activity) (found : Option Found) (o : Opening)
    (hstill : s.activity.sessionStarted = true → 0 < s.activity.posted.heartbeats) :
    Paced (onResume found o s).activity := by
  unfold onResume
  refine (tries_findAndOpenDongle found o _).paced ?_
  have hbeats : s.activity.sessionStarted = true → s.activity.posted.heartbeats = 1 :=
    fun hstarted => Nat.le_antisymm ha.one (hstill hstarted)
  dsimp only
  split_ifs
  · exact ⟨fun hstarted _ => hbeats hstarted, ha.one⟩
  · exact ⟨fun hstarted _ => hbeats hstarted, ha.one⟩

theorem paced_onServiceConnected (ha : Paced s.activity) (found : Option Found) (o : Opening)
    (hstill : s.service.isStarted = true → s.activity.userLeft = false →
      0 < s.activity.posted.heartbeats) :
    Paced (onServiceConnected found o s).activity := by
  unfold onServiceConnected
  dsimp only
  by_cases hstarted : s.service.isStarted = true
  · rw [if_pos hstarted]
    exact ⟨fun _ hleft => Nat.le_antisymm ha.one (hstill hstarted hleft), ha.one⟩
  · rw [if_neg hstarted]
    split
    · refine (tries_openDevice _ o _).paced ?_
      exact ⟨ha.beating, ha.one⟩
    · refine (tries_findAndOpenDongle found o _).paced ?_
      exact ⟨ha.beating, ha.one⟩

/-- The beat that runs is the next one's, as long as the session is in use. -/
theorem paced_runHeartbeat (ha : Paced s.activity) :
    Paced (activityStep s .runHeartbeat).activity := by
  simp only [activityStep, run]
  split_ifs with hnone
  · exact ha
  · have hone : s.activity.posted.heartbeats = 1 :=
      Nat.le_antisymm ha.one (Nat.pos_of_ne_zero hnone)
    unfold sessionHeartbeat setPosted
    dsimp only
    split_ifs with hidle
    · refine ha.idle (Nat.sub_le ..) fun hstarted hleft => ?_
      obtain hnone | hgone := hidle
      · exact Bool.noConfusion (hstarted.symm.trans hnone)
      · exact Bool.noConfusion (hleft.symm.trans hgone)
    · have hagain : s.activity.posted.heartbeats - 1 + 1 = 1 := by rw [hone]
      exact ⟨fun _ _ => hagain, Nat.le_of_eq hagain⟩

theorem paced_runMuteCheck (ha : Paced s.activity) :
    Paced (activityStep s .runMuteCheck).activity := by
  simp only [activityStep, run, muteDongleCheck]
  split_ifs <;> exact ⟨ha.beating, ha.one⟩

/-- **One callback keeps the pace**, when a beat is pending where it has to be. -/
theorem paced_activityStep (ha : Paced s.activity) (hcreated : s.activity.created = true)
    {e : Event} (hstill : s.StillBeats e) : Paced (activityStep s e).activity := by
  by_cases hopen : MayOpen e
  · exact (tries_activityStep hopen s).paced ha
  · cases e with
    | onCreate => exact ⟨fun hstarted => Bool.noConfusion hstarted, Nat.zero_le 1⟩
    | onResume found o => exact paced_onResume ha found o (hstill hcreated)
    | onServiceConnected found o => exact paced_onServiceConnected ha found o (hstill hcreated)
    | onServiceDisconnected => exact ⟨fun hstarted => Bool.noConfusion hstarted, ha.one⟩
    | deviceDetached device now => exact paced_deviceDetached now s
    | onNewIntent =>
        refine ⟨fun hstarted _ => Nat.le_antisymm ha.one ?_, ha.one⟩
        exact hstill hcreated hstarted
    | onUserLeaveHint recent =>
        simp only [activityStep]
        split_ifs
        · exact ha
        · exact ⟨fun _ hleft => Bool.noConfusion hleft, ha.one⟩
    | onBackPressed now inCall => exact paced_onBackPressed ha now inCall
    | onWindowFocusChanged hasFocus =>
        simp only [activityStep]
        split_ifs <;> exact ha
    | onStatusClick phoneConnected =>
        simp only [activityStep]
        split_ifs
        · exact ha
        · exact ⟨fun hstarted => Bool.noConfusion hstarted, ha.one⟩
    | onDestroy => exact ⟨fun hstarted => Bool.noConfusion hstarted, Nat.zero_le 1⟩
    | runMuteCheck => exact paced_runMuteCheck ha
    | runHeartbeat => exact paced_runHeartbeat ha
    | usbPermission | deviceAttached | surfaceChanged | runSearch | runReconnect
    | runPermissionRetry => exact absurd trivial hopen
    | _ => exact ⟨ha.beating, ha.one⟩

theorem stillBeats_serviceStep (e : Event) :
    ({ s with service := serviceStep s.service e } : State).StillBeats e ↔ s.StillBeats e := by
  cases e <;> rfl

theorem paced_step (ha : Paced s.activity) {e : Event} (hstill : s.StillBeats e) :
    Paced (step s e).activity := by
  rcases step_cases s e with ⟨hcreated | rfl, heq⟩ | ⟨-, -, heq⟩
  · rw [heq]
    exact paced_activityStep (s := { s with service := serviceStep s.service e }) ha hcreated
      ((stillBeats_serviceStep e).2 hstill)
  · exact ⟨fun hstarted => Bool.noConfusion hstarted, Nat.zero_le 1⟩
  · rwa [heq]

/-- Where no beat is pending, use that begins again has none. -/
theorem stillBeats_of_beating {e : Event} (hbeating : (step s e).Beating) : s.StillBeats e := by
  cases e with
  | onResume found o =>
      intro hcreated hstarted
      have hone : s.activity.posted.heartbeats = 1 := by
        simp only [step, hcreated, if_true, activityStep, onResume, serviceStep] at hbeating
        unfold findAndOpenDongle at hbeating
        split_ifs at hbeating
        all_goals simp_all [Beating]
      exact Nat.lt_of_lt_of_eq Nat.zero_lt_one hone.symm
  | onServiceConnected found o =>
      intro hcreated hstarted hleft
      have hone : s.activity.posted.heartbeats = 1 := by
        simp only [step, hcreated, if_true, activityStep, onServiceConnected, serviceStep,
          hstarted] at hbeating
        exact hbeating rfl hleft
      exact Nat.lt_of_lt_of_eq Nat.zero_lt_one hone.symm
  | onNewIntent =>
      intro hcreated hstarted
      have hone : s.activity.posted.heartbeats = 1 := by
        simp only [step, hcreated, if_true, activityStep, serviceStep] at hbeating
        exact hbeating hstarted rfl
      exact Nat.lt_of_lt_of_eq Nat.zero_lt_one hone.symm
  | _ => trivial

/-- **When the session's heartbeat goes on.**  For every run of callbacks and commands, over
a service with or without a session: after each of them exactly one beat is pending if the
session is in use, exactly when a beat is pending wherever use begins again without
`openDevice`. -/
theorem beating_iff (service : Service) (es : List Event) :
    Along step (fun s e => (step s e).Beating) (start service) es ↔
      Along step StillBeats (start service) es :=
  along_iff_of_invariant (I := fun s => Paced s.activity)
    (fun _ _ ha => ⟨stillBeats_of_beating, fun hstill => (paced_step ha hstill).beating⟩)
    (fun _ _ ha hstill => paced_step ha hstill)
    ⟨fun hstarted => Bool.noConfusion hstarted, Nat.zero_le 1⟩ es

/-- **Back to a session that is active.**  The session runs, the Activity goes and comes
again; `onServiceConnected` takes the session over, and no beat is pending. -/
theorem not_beating_reconnected :
    ¬ Along step (fun s e => (step s e).Beating) (start .idle) [.onCreate,
      .onServiceConnected (some ⟨1, true⟩) opens, .surfaceCreated,
      .surfaceChanged ⟨800, 480, by decide, by decide⟩ opens, .onDestroy, .onCreate,
      .onServiceConnected none opens] := by
  decide

end State
end App
end Carlinkit
