/-
# The reconnection attempts of two minutes

`scheduleDongleReconnect` means a sliding window: attempts that are older than
`RECONNECT_WINDOW_MS` do not count.  It keeps a counter and the time of the first attempt
that it counts, and starts over when that one is too old.  So the attempts right before
the window starts over are forgotten while they are still recent.

The observer keeps the times of the attempts since the counters were last reset, and which
of them the counter counts (`current`) or counted before it started over (`previous`).
`slides_iff` says that every interval has at most five attempts exactly when no attempt is
one too many for the recent ones of both windows; the windows before these do not matter.
-/

import Carlinkit.App.Activity
import Carlinkit.Machine.Window

namespace Carlinkit
namespace App

open Machine

/-- The window of the counters is over. -/
def Activity.Expired (a : Activity) (now : ℕ) : Prop :=
  0 < a.firstReconnectAttemptAt ∧ reconnectWindowMs < now - a.firstReconnectAttemptAt

instance (a : Activity) (now : ℕ) : Decidable (a.Expired now) :=
  inferInstanceAs (Decidable (_ ∧ _))

/-- The times of the attempts, the newest first. -/
structure Attempts where
  all : List ℕ
  current : List ℕ
  previous : List ℕ

/-- No attempt. -/
def Attempts.none : Attempts := ⟨[], [], []⟩

/-- One more attempt. -/
def Attempts.add (a : Activity) (now : ℕ) (x : Attempts) : Attempts where
  all := now :: x.all
  current := if a.Expired now then [now] else now :: x.current
  previous := if a.Expired now then x.current else x.previous

namespace State

/-- The counters are reset: by a new Activity, by `onResume`, or by a `muteDongleCheck` that
finds the dongle healthy. -/
def Resets (s : State) : Event → Prop
  | .onCreate => True
  | .onDestroy => s.activity.created = true
  | .onResume _ _ => s.activity.created = true ∧ s.activity.awaitingUsbPermission = false
  | .runMuteCheck =>
      s.activity.created = true ∧ s.activity.posted.muteChecks ≠ 0 ∧
        s.activity.sessionStarted = true ∧ s.activity.userLeft = false ∧
        s.activity.connected = true ∧ ∃ x ∈ s.service.session, x.receivedData = true
  | _ => False

instance (s : State) : ∀ e, Decidable (s.Resets e)
  | .onCreate => .isTrue trivial
  | .onDestroy => inferInstanceAs (Decidable (_ = _))
  | .onResume .. => inferInstanceAs (Decidable (_ ∧ _))
  | .runMuteCheck =>
      inferInstanceAs (Decidable (_ ∧ _ ∧ _ ∧ _ ∧ _ ∧ ∃ x ∈ s.service.session, _))
  | .onServiceConnected .. | .onServiceDisconnected | .usbPermission .. | .deviceDetached ..
  | .deviceAttached .. | .layout .. | .surfaceCreated | .surfaceChanged .. | .surfaceDestroyed
  | .onNewIntent | .onUserLeaveHint _ | .onBackPressed .. | .onWindowFocusChanged _
  | .onStatusClick _ | .runSearch .. | .runReconnect .. | .runPermissionRetry ..
  | .runHeartbeat | .stop | .serviceDeviceAttached .. | .serviceOnDestroy | .received =>
      .isFalse id

/-- The time of the attempt that the event schedules: another reconnection waits. -/
def schedules (s : State) : Event → Option ℕ
  | .deviceDetached device now =>
      if s.activity.posted.reconnects <
          (step s (.deviceDetached device now)).activity.posted.reconnects then some now
      else none
  | _ => none

/-- The attempts since the counters were last reset. -/
def attempts (s : State) (x : Attempts) (e : Event) : Attempts :=
  if s.Resets e then .none
  else
    match s.schedules e with
    | some now => x.add s.activity now
    | none => x

/-- The clock has started, and does not go back. -/
def Clocked (x : State × Attempts) : Event → Prop
  | .deviceDetached _ now => 0 < now ∧ ∀ t ∈ x.2.all, t ≤ now
  | _ => True

instance (x : State × Attempts) : ∀ e, Decidable (Clocked x e)
  | .deviceDetached .. => inferInstanceAs (Decidable (_ ∧ ∀ t ∈ x.2.all, _))
  | .onCreate | .onResume .. | .onServiceConnected .. | .onServiceDisconnected
  | .usbPermission .. | .deviceAttached .. | .layout .. | .surfaceCreated | .surfaceChanged ..
  | .surfaceDestroyed | .onNewIntent | .onUserLeaveHint _ | .onBackPressed ..
  | .onWindowFocusChanged _ | .onStatusClick _ | .onDestroy | .runSearch .. | .runReconnect ..
  | .runPermissionRetry .. | .runMuteCheck | .runHeartbeat | .stop | .serviceDeviceAttached ..
  | .serviceOnDestroy | .received => .isTrue trivial

/-- Every interval of the length of the window has at most five attempts. -/
def Slides (x : State × Attempts) (e : Event) : Prop :=
  Spread maxDongleReconnectAttempts reconnectWindowMs (watched step attempts x e).2.all

/-- The attempt is none too many for the window that it is counted in together with the
recent attempts of the window before. -/
def Fits (x : State × Attempts) (e : Event) : Prop :=
  ∀ now ∈ x.1.schedules e,
    recent reconnectWindowMs now (x.2.add x.1.activity now).previous +
      (x.2.add x.1.activity now).current.length ≤ maxDongleReconnectAttempts

instance (x : State × Attempts) (e : Event) : Decidable (Fits x e) :=
  inferInstanceAs (Decidable (∀ now ∈ x.1.schedules e, _))

variable {s : State}

/-! ## The counters -/

/-- The counters stay. -/
def Counts (a b : Activity) : Prop :=
  b.dongleReconnectAttempts = a.dongleReconnectAttempts ∧
    b.firstReconnectAttemptAt = a.firstReconnectAttemptAt

theorem Tries.counts {t : State} (h : Tries s t) : Counts s.activity t.activity :=
  ⟨h.steady.dongleReconnectAttempts, h.steady.firstReconnectAttemptAt⟩

theorem counts_of_sameSearch {a b : Activity} (h : a.SameSearch b) : Counts a b :=
  ⟨h.dongleReconnectAttempts, h.firstReconnectAttemptAt⟩

theorem counts_onServiceConnected (found : Option Found) (o : Opening) (s : State) :
    Counts s.activity (onServiceConnected found o s).activity := by
  unfold onServiceConnected
  dsimp only
  by_cases hstarted : s.service.isStarted = true
  · rw [if_pos hstarted]
    exact ⟨rfl, rfl⟩
  · rw [if_neg hstarted]
    split
    · exact (tries_openDevice _ o _).counts
    · exact (tries_findAndOpenDongle found o _).counts

/-- A callback that resets nothing leaves the counters to `scheduleDongleReconnect`. -/
theorem counts_activityStep (hcreated : s.activity.created = true) {e : Event}
    (hreset : ¬ s.Resets e) (hdetached : ∀ device now, e ≠ .deviceDetached device now) :
    Counts s.activity (activityStep s e).activity := by
  by_cases hopen : MayOpen e
  · exact (tries_activityStep hopen s).counts
  · cases e with
    | onCreate => exact absurd trivial hreset
    | onDestroy => exact absurd hcreated hreset
    | onResume found o =>
        have hawait : s.activity.awaitingUsbPermission = true := by
          by_contra hnot
          exact hreset ⟨hcreated, by simpa using hnot⟩
        simp only [activityStep, onResume, hawait, if_true]
        exact (tries_findAndOpenDongle found o _).counts
    | onServiceConnected found o => exact counts_onServiceConnected found o s
    | deviceDetached device now => exact absurd rfl (hdetached device now)
    | runMuteCheck =>
        simp only [activityStep, run]
        split_ifs with hnone
        · exact ⟨rfl, rfl⟩
        · unfold muteDongleCheck setPosted
          dsimp only
          split_ifs with hidle hhealthy
          · exact ⟨rfl, rfl⟩
          · obtain ⟨hstarted, hleft⟩ := not_or.1 hidle
            refine absurd ⟨hcreated, hnone, ?_, ?_, hhealthy⟩ hreset
            · simpa using hstarted
            · simpa using hleft
          · exact ⟨rfl, rfl⟩
    | usbPermission | deviceAttached | surfaceChanged | runSearch | runReconnect
    | runPermissionRetry => exact absurd trivial hopen
    | stop | serviceDeviceAttached | serviceOnDestroy | received => exact ⟨rfl, rfl⟩
    | _ =>
        refine counts_of_sameSearch (sameSearch_activityStep ?_ s)
        trivial

theorem counts_step {e : Event} (hreset : ¬ s.Resets e)
    (hdetached : ∀ device now, e ≠ .deviceDetached device now) :
    Counts s.activity (step s e).activity := by
  have hreset' : ¬ ({ s with service := serviceStep s.service e } : State).Resets e := by
    cases e <;> exact hreset
  rcases step_cases s e with ⟨hcreated | rfl, heq⟩ | ⟨-, -, heq⟩
  · rw [heq]
    exact counts_activityStep (s := { s with service := serviceStep s.service e }) hcreated
      hreset' hdetached
  · exact absurd trivial hreset
  · rw [heq]
    exact ⟨rfl, rfl⟩

/-- A reset leaves nothing counted. -/
theorem counters_of_resets {e : Event} (hreset : s.Resets e) :
    (step s e).activity.dongleReconnectAttempts = 0 ∧
      (step s e).activity.firstReconnectAttemptAt = 0 := by
  cases e with
  | onCreate => exact ⟨rfl, rfl⟩
  | onDestroy =>
      have hcreated : s.activity.created = true := hreset
      simp [step, hcreated, activityStep, onDestroy, Activity.fresh]
  | onResume found o =>
      obtain ⟨hcreated, hawait⟩ := hreset
      simp only [step, hcreated, if_true, activityStep, onResume, hawait, serviceStep]
      exact (tries_findAndOpenDongle found o _).counts
  | runMuteCheck =>
      obtain ⟨hcreated, hwaits, hstarted, hleft, hconnected, x, hx, hreceived⟩ := hreset
      simp [step, hcreated, activityStep, run, hwaits, muteDongleCheck, setPosted, hstarted,
        hleft, serviceStep, hconnected, Option.mem_def.1 hx, hreceived]
  | _ => exact absurd hreset id

/-- **What `scheduleDongleReconnect` does to the counters.**  There is no attempt; or it is
one more in the window, or the first of the next one. -/
theorem scheduleDongleReconnect_cases (now : ℕ) (s : State) :
    ((scheduleDongleReconnect now s).activity.posted.reconnects = s.activity.posted.reconnects ∧
        Counts s.activity (scheduleDongleReconnect now s).activity) ∨
      ((scheduleDongleReconnect now s).activity.posted.reconnects =
          s.activity.posted.reconnects + 1 ∧
        (scheduleDongleReconnect now s).activity.dongleReconnectAttempts =
          (if s.activity.Expired now then 0 else s.activity.dongleReconnectAttempts) + 1 ∧
        (scheduleDongleReconnect now s).activity.firstReconnectAttemptAt =
          if s.activity.Expired now ∨ s.activity.firstReconnectAttemptAt = 0 then now
          else s.activity.firstReconnectAttemptAt) := by
  unfold scheduleDongleReconnect
  by_cases hleft : s.activity.userLeft = true
  · rw [if_pos hleft]
    exact .inl ⟨rfl, rfl, rfl⟩
  · rw [if_neg hleft]
    by_cases hexpired : s.activity.Expired now
    · have hover : 0 < s.activity.firstReconnectAttemptAt ∧
          reconnectWindowMs < now - s.activity.firstReconnectAttemptAt := hexpired
      refine .inr ⟨?_, ?_, ?_⟩ <;> simp [hover, hexpired, maxDongleReconnectAttempts]
    · have hnot : ¬ (0 < s.activity.firstReconnectAttemptAt ∧
          reconnectWindowMs < now - s.activity.firstReconnectAttemptAt) := hexpired
      simp only [if_neg hnot, hexpired, if_false, false_or]
      by_cases hfull : maxDongleReconnectAttempts ≤ s.activity.dongleReconnectAttempts
      · rw [if_pos hfull]
        exact .inl ⟨rfl, rfl, rfl⟩
      · rw [if_neg hfull]
        exact .inr ⟨rfl, rfl, rfl⟩

/-- A detach comes to what `scheduleDongleReconnect` makes of it. -/
theorem deviceDetached_cases (s : State) (device now : ℕ) :
    (s.schedules (.deviceDetached device now) = none ∧
        Counts s.activity (step s (.deviceDetached device now)).activity) ∨
      (s.schedules (.deviceDetached device now) = some now ∧
        (step s (.deviceDetached device now)).activity.dongleReconnectAttempts =
          (if s.activity.Expired now then 0 else s.activity.dongleReconnectAttempts) + 1 ∧
        (step s (.deviceDetached device now)).activity.firstReconnectAttemptAt =
          if s.activity.Expired now ∨ s.activity.firstReconnectAttemptAt = 0 then now
          else s.activity.firstReconnectAttemptAt) := by
  unfold schedules
  by_cases hcreated : s.activity.created = true
  · have hstep : step s (.deviceDetached device now) = scheduleDongleReconnect now
        ({ s with service := s.service.detached device } : State).releaseSurface := by
      simp [step, hcreated, activityStep, deviceDetached, serviceStep]
    rw [hstep]
    rcases scheduleDongleReconnect_cases now
        ({ s with service := s.service.detached device } : State).releaseSurface with
      ⟨hreconnects, hcounts⟩ | ⟨hreconnects, hcounts⟩
    · refine .inl ⟨if_neg ?_, hcounts⟩
      rw [hstep]
      exact Nat.not_lt.2 (Nat.le_of_eq hreconnects)
    · refine .inr ⟨if_pos ?_, hcounts⟩
      rw [hstep]
      exact Nat.lt_of_lt_of_eq (Nat.lt_succ_self _) hreconnects.symm
  · refine .inl ⟨?_, ?_⟩
    · simp [step, hcreated]
    · exact ⟨by simp [step, hcreated], by simp [step, hcreated]⟩

/-! ## The windows -/

/-- The counters and what they have counted.  `older` are the windows before `previous`. -/
structure Windowed (a : Activity) (x : Attempts) : Prop where
  count : x.current.length = a.dongleReconnectAttempts
  none : a.firstReconnectAttemptAt = 0 → x = .none
  first : a.firstReconnectAttemptAt ≠ 0 → a.firstReconnectAttemptAt ∈ x.current
  current : ∀ t ∈ x.current,
    a.firstReconnectAttemptAt ≤ t ∧ t ≤ a.firstReconnectAttemptAt + reconnectWindowMs
  previous : ∀ t ∈ x.previous, t ≤ a.firstReconnectAttemptAt
  parts : ∃ older, x.all = x.current ++ (x.previous ++ older) ∧
    ∀ t ∈ older, t + reconnectWindowMs < a.firstReconnectAttemptAt

variable {a b : Activity} {x : Attempts} {now : ℕ}

theorem Windowed.congr (h : Windowed a x) (hab : Counts a b) : Windowed b x := by
  obtain ⟨hcount, hfirst⟩ := hab
  obtain ⟨h₁, h₂, h₃, h₄, h₅, h₆⟩ := h
  exact ⟨hcount ▸ h₁, hfirst ▸ h₂, hfirst ▸ h₃, hfirst ▸ h₄, hfirst ▸ h₅, hfirst ▸ h₆⟩

/-- Nothing is counted. -/
theorem windowed_none (hcount : a.dongleReconnectAttempts = 0)
    (hfirst : a.firstReconnectAttemptAt = 0) : Windowed a .none where
  count := hcount.symm
  none _ := rfl
  first hne := absurd hfirst hne
  current t ht := by simp [Attempts.none] at ht
  previous t ht := by simp [Attempts.none] at ht
  parts := ⟨[], rfl, fun t ht => by simp at ht⟩

/-- The first attempt of the next window. -/
theorem Windowed.add_expired (h : Windowed a x) (hall : ∀ t ∈ x.all, t ≤ now)
    (hexpired : a.Expired now) (hcount : b.dongleReconnectAttempts = 1)
    (hfirst : b.firstReconnectAttemptAt = now) : Windowed b (x.add a now) := by
  obtain ⟨older, hparts, holder⟩ := h.parts
  have hover : a.firstReconnectAttemptAt + reconnectWindowMs < now := by
    have := hexpired.2
    omega
  have hpos : now ≠ 0 := Nat.ne_zero_of_lt hover
  refine ⟨?_, fun hzero => absurd (hfirst ▸ hzero) hpos, fun _ => ?_, ?_, ?_,
    x.previous ++ older, ?_, ?_⟩
  · simp [Attempts.add, hexpired, hcount]
  · simp [Attempts.add, hexpired, hfirst]
  · simp [Attempts.add, hexpired, hfirst]
  · intro t ht
    simp only [Attempts.add, if_pos hexpired] at ht
    rw [hfirst]
    exact hall t (hparts ▸ List.mem_append_left _ ht)
  · simp [Attempts.add, hexpired, hparts]
  · intro t ht
    rw [hfirst]
    obtain hprevious | hold := List.mem_append.1 ht
    · have := h.previous t hprevious
      omega
    · have := holder t hold
      omega

/-- One more attempt in the window, or the very first. -/
theorem Windowed.add_current (h : Windowed a x) (hnow : 0 < now) (hall : ∀ t ∈ x.all, t ≤ now)
    (hexpired : ¬ a.Expired now)
    (hcount : b.dongleReconnectAttempts = a.dongleReconnectAttempts + 1)
    (hfirst : b.firstReconnectAttemptAt =
      if a.firstReconnectAttemptAt = 0 then now else a.firstReconnectAttemptAt) :
    Windowed b (x.add a now) := by
  have hlength : (x.add a now).current.length = b.dongleReconnectAttempts := by
    simp [Attempts.add, hexpired, hcount, h.count]
  by_cases hzero : a.firstReconnectAttemptAt = 0
  · obtain rfl := h.none hzero
    rw [if_pos hzero] at hfirst
    refine ⟨hlength, fun hz => absurd (hfirst ▸ hz) (Nat.ne_of_gt hnow), fun _ => ?_, ?_, ?_,
      [], ?_, fun t ht => by simp at ht⟩
    · simp [Attempts.add, Attempts.none, hexpired, hfirst]
    · simp [Attempts.add, Attempts.none, hexpired, hfirst]
    · simp [Attempts.add, Attempts.none, hexpired]
    · simp [Attempts.add, Attempts.none, hexpired]
  · obtain ⟨older, hparts, holder⟩ := h.parts
    rw [if_neg hzero] at hfirst
    have hmem := h.first hzero
    have hge : a.firstReconnectAttemptAt ≤ now := hall _ (hparts ▸ List.mem_append_left _ hmem)
    have hle : now ≤ a.firstReconnectAttemptAt + reconnectWindowMs := by
      by_contra hnot
      exact hexpired ⟨by omega, by omega⟩
    refine ⟨hlength, fun hz => absurd (hfirst ▸ hz) hzero, fun _ => ?_, ?_, ?_, older, ?_, ?_⟩
    · simp [Attempts.add, hexpired, hfirst, hmem]
    · intro t ht
      simp only [Attempts.add, if_neg hexpired, List.mem_cons] at ht
      rw [hfirst]
      obtain rfl | ht := ht
      · exact ⟨hge, hle⟩
      · exact h.current t ht
    · simpa [Attempts.add, hexpired, hfirst] using h.previous
    · simp [Attempts.add, hexpired, hparts]
    · simpa [hfirst] using holder

/-- The recent attempts are in the last window and in the one before. -/
theorem Windowed.recent_all (h : Windowed b (x.add a now)) (hall : ∀ t ∈ x.all, t ≤ now) :
    recent reconnectWindowMs now (x.add a now).all =
      (x.add a now).current.length + recent reconnectWindowMs now (x.add a now).previous := by
  obtain ⟨older, hparts, holder⟩ := h.parts
  have hmem : ∀ t ∈ (x.add a now).all, t ≤ now := by
    intro t ht
    obtain rfl | ht := List.mem_cons.1 ht
    · exact Nat.le_refl _
    · exact hall t ht
  have hnow : now ∈ (x.add a now).current := by
    unfold Attempts.add
    dsimp only
    split_ifs <;> exact List.mem_cons_self ..
  have hold : recent reconnectWindowMs now older = 0 := by
    refine recent_eq_zero fun t ht => ?_
    exact Nat.lt_of_lt_of_le (holder t ht) (h.current now hnow).1
  have hcurrent : recent reconnectWindowMs now (x.add a now).current =
      (x.add a now).current.length := by
    refine recent_eq_length fun t ht => ?_
    have hstart := (h.current t ht).1
    have hend := (h.current now hnow).2
    omega
  rw [hparts, recent_append, recent_append, hold, hcurrent, Nat.add_zero]

/-! ## Runs -/

variable {y : State × Attempts} {e : Event}

/-- Nothing is scheduled where nothing is detached. -/
theorem attempts_of_not_detached (hreset : ¬ s.Resets e)
    (hdetached : ∀ device now, e ≠ .deviceDetached device now) : s.attempts x e = x := by
  unfold attempts
  rw [if_neg hreset]
  cases e with
  | deviceDetached device now => exact absurd rfl (hdetached device now)
  | _ => rfl

theorem attempts_deviceDetached (device : ℕ) :
    s.attempts x (.deviceDetached device now) =
      match s.schedules (.deviceDetached device now) with
      | some now => x.add s.activity now
      | none => x :=
  if_neg id

theorem windowed_step (h : Windowed y.1.activity y.2) (hclock : Clocked y e) :
    Windowed (step y.1 e).activity (y.1.attempts y.2 e) := by
  by_cases hreset : y.1.Resets e
  · obtain ⟨hcount, hfirst⟩ := counters_of_resets hreset
    rw [attempts, if_pos hreset]
    exact windowed_none hcount hfirst
  · by_cases hdetached : ∃ device now, e = .deviceDetached device now
    · obtain ⟨device, now, rfl⟩ := hdetached
      obtain ⟨hnow, hall⟩ := hclock
      rw [attempts_deviceDetached]
      rcases deviceDetached_cases y.1 device now with
        ⟨hnone, hcounts⟩ | ⟨hsome, hcount, hfirst⟩
      · rw [hnone]
        exact h.congr hcounts
      · rw [hsome]
        by_cases hexpired : y.1.activity.Expired now
        · rw [if_pos hexpired] at hcount
          rw [if_pos (.inl hexpired)] at hfirst
          exact h.add_expired hall hexpired hcount hfirst
        · rw [if_neg hexpired] at hcount
          simp only [hexpired, false_or] at hfirst
          exact h.add_current hnow hall hexpired hcount hfirst
    · have hnot : ∀ device now, e ≠ .deviceDetached device now :=
        fun device now heq => hdetached ⟨device, now, heq⟩
      rw [attempts_of_not_detached hreset hnot]
      exact h.congr (counts_step hreset hnot)

/-- **One callback.**  The times stay spread as long as the attempt fits. -/
theorem slides_step_iff (h : Windowed y.1.activity y.2)
    (hspread : Spread maxDongleReconnectAttempts reconnectWindowMs y.2.all)
    (hclock : Clocked y e) : Slides y e ↔ Fits y e := by
  have hwindowed := windowed_step h hclock
  by_cases hdetached : ∃ device now, e = .deviceDetached device now
  · obtain ⟨device, now, rfl⟩ := hdetached
    obtain ⟨hnow, hall⟩ := hclock
    rw [attempts_deviceDetached] at hwindowed
    unfold Slides Fits
    rw [watched, attempts_deviceDetached]
    rcases deviceDetached_cases y.1 device now with ⟨hnone, -⟩ | ⟨hsome, -, -⟩
    · rw [hnone]
      exact iff_of_true hspread fun now hmem => by simp at hmem
    · rw [hsome] at hwindowed ⊢
      have hrecent := hwindowed.recent_all hall
      have hadd : recent reconnectWindowMs now (y.2.add y.1.activity now).all =
          recent reconnectWindowMs now y.2.all + 1 :=
        List.countP_cons_of_pos (decide_eq_true (Nat.le_add_right now _))
      have hcons : Spread maxDongleReconnectAttempts reconnectWindowMs
          (y.2.add y.1.activity now).all ↔
            recent reconnectWindowMs now y.2.all < maxDongleReconnectAttempts :=
        (spread_cons hall).trans (and_iff_right hspread)
      simp only [Option.mem_def, Option.some.injEq, forall_eq']
      rw [hcons]
      omega
  · have hnot : ∀ device now, e ≠ .deviceDetached device now :=
      fun device now heq => hdetached ⟨device, now, heq⟩
    have hnone : y.1.schedules e = none := by
      cases e with
      | deviceDetached device now => exact absurd rfl (hnot device now)
      | _ => rfl
    refine iff_of_true ?_ fun now hmem => by simp [hnone] at hmem
    unfold Slides watched
    by_cases hreset : y.1.Resets e
    · rw [attempts, if_pos hreset]
      exact fun a => Nat.zero_le _
    · rw [attempts_of_not_detached hreset hnot]
      exact hspread

/-- **When the window slides.**  For every run of callbacks and commands under a clock that
does not go back, from one reset of the counters to the next: every interval of two minutes
has at most five attempts, exactly when every attempt fits with the recent ones of the
window before. -/
theorem slides_iff (service : Service) (es : List Event)
    (hclock : Along (watched step attempts) Clocked (start service, .none) es) :
    Along (watched step attempts) Slides (start service, .none) es ↔
      Along (watched step attempts) Fits (start service, .none) es := by
  refine along_iff (I := fun y => Windowed y.1.activity y.2 ∧
      Spread maxDongleReconnectAttempts reconnectWindowMs y.2.all) ?_ ?_ ?_ hclock
  · exact fun y e h hclock => slides_step_iff h.1 h.2 hclock
  · intro y e h hclock hfits
    exact ⟨windowed_step h.1 hclock, (slides_step_iff h.1 h.2 hclock).2 hfits⟩
  · exact ⟨windowed_none rfl rfl, fun _ => Nat.zero_le _⟩

/-- Five attempts within two minutes, and a sixth one when they are over. -/
theorem slides_iff_apart :
    Along (watched step attempts) Slides (start .idle, .none)
      (.onCreate :: [1000, 2000, 3000, 4000, 5000, 6000, 125001].map (.deviceDetached 1)) :=
  (slides_iff .idle _ (by decide)).2 (by decide)

/-- **Two bursts around the end of a window.**  One attempt opens the window, four come at
its end, and the next ones find it over. -/
theorem not_slides_bursts :
    ¬ Along (watched step attempts) Slides (start .idle, .none)
      (.onCreate :: [1000, 120001, 120002, 120003, 120004, 121001, 121002].map
        (.deviceDetached 1)) := by
  rintro ⟨-, -, -, -, -, -, -, hspread, -⟩
  exact absurd (hspread 120001) (by decide)

end State
end App
end Carlinkit
