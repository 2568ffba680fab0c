/-
# The same numbers in the car and on the bench

The heartbeat of the app prints `in`, `inBytes` and `maxGap` from `drainAudioStats`, the bench
prints them from `window_tick`, and a run in the car is compared with a run on the bench by
these three numbers.  Here both get the same messages at the same times and are read at the same
moments (`Window`), and in between the worker of the app writes and its queue loses what it
will.  Heartbeats and lines without audio are left out.

`numbers_eq_iff` says that `in` and `inBytes` are the same exactly when no audio message has two
or three bytes behind its header.  `AudioMessage.parse` takes these for PCM; the script asks for
more than four bytes.  `maxGap` is then the same but for a millisecond: the app rounds down
nanoseconds, the script a float of `time.time()`.  For that `System.nanoTime()` must not be zero
at a message, because the app has zero for "no chunk yet".
-/

import Carlinkit.Bench.Windows

namespace Carlinkit
namespace Bench

open Framing Machine Protocol App

/-- A message, and the `System.nanoTime()` at which it is noted. -/
structure Noted where
  mtype : ℕ
  payload : List Byte
  now : ℤ
deriving DecidableEq, Repr

/-- What the read thread and the heartbeat do not do. -/
def Other : AudioStats.Event → Prop
  | .input .. | .drain .. => False
  | _ => True

/-- A message comes, or the worker or the queue does something. -/
abbrev Happening := Noted ⊕ { e : AudioStats.Event // Other e }

/-- What happens up to a heartbeat, which finds `size` works and the problem of the worker. -/
structure Window where
  events : List Happening
  stop : ℤ
  size : ℕ
  worker : Option String

/-- What `CarlinkitAudioPlayer.onAudio` notes of a message while the player runs. -/
def onAudio (m : Noted) : Option AudioStats.Event :=
  if m.mtype = 0x07 then
    (AudioMessage.parse (some m.payload) m.payload.length).bind fun am =>
      if am.kind = .pcm ∧ 0 < am.pcmLength then some (.input m.now am.pcmLength) else none
  else none

/-- What happens to the counters of the app. -/
def appStep (x : Monitor) : Happening → Monitor
  | .inl m => run Monitor.step x (onAudio m).toList
  | .inr e => x.step e.1

/-- A window of the app. -/
def appWindow (x : Monitor) (w : Window) : Monitor :=
  (run appStep x w.events).step (.drain w.size w.worker)

section Bench

-- `time.time()`, in units, when `System.nanoTime()` would give the argument
variable (time : ℤ → ℤ)

/-- What happens to the window of the bench. -/
def benchStep (y : Log) : Happening → Log
  | .inl m => { y with win := y.win.see (time m.now) m.mtype m.payload }
  | .inr _ => y

/-- A window of the bench. -/
def benchWindow (y : Log) (w : Window) : Log :=
  (run (benchStep time) y w.events).tick true (time w.stop)

/-- `time.time()` measures to a microsecond. -/
def Measures : Prop :=
  ∀ t now : ℤ,
    ((time now - time t) * 1000000000 - (now - t) * second).natAbs ≤ 1000 * second.toNat

end Bench

/-- `in`, `inBytes` and `maxGap`. -/
abbrev Numbers := ℕ × ℕ × ℕ

/-- The numbers of a report. -/
def appLine (r : Report) : Numbers :=
  (r.account.inputs, r.account.inputBytes, r.account.maxGap.val)

/-- The numbers of a line. -/
def benchLine (l : Line) : Numbers := (l.pcm, l.bytes, l.maxGap)

/-- The numbers with audio. -/
def audible (ns : List Numbers) : List Numbers := ns.filter fun n => n.1 ≠ 0

/-- The numbers of the app. -/
def appNumbers (ws : List Window) : List Numbers :=
  audible ((run appWindow .start ws).reports.map appLine)

/-- The numbers of the bench. -/
def benchNumbers (time : ℤ → ℤ) (start : ℤ) (ws : List Window) : List Numbers :=
  audible ((run (benchWindow time) ⟨.new start, []⟩ ws).lines.map benchLine)

/-- `in` and `inBytes`. -/
def counts (n : Numbers) : ℕ × ℕ := (n.1, n.2.1)

/-- A millisecond apart, or less. -/
def Near (a b : ℕ) : Prop := a ≤ b + 1 ∧ b ≤ a + 1

/-- An audio message with two or three bytes behind its header. -/
def Stub (m : Noted) : Prop :=
  m.mtype = 0x07 ∧ (m.payload.length = 14 ∨ m.payload.length = 15)

instance (m : Noted) : Decidable (Stub m) := inferInstanceAs (Decidable (_ ∧ _))

variable {x : Monitor} {y : Log} {m : Noted} {w : Window} {time : ℤ → ℤ} {P : Prop}

/-! ### What counts -/

/-- The app counts an audio message with anything behind the header but a command or a
duration. -/
theorem onAudio_eq (m : Noted) :
    onAudio m = if m.mtype = 0x07 ∧ 12 < m.payload.length ∧ m.payload.length ≠ 13 ∧
        m.payload.length ≠ 16 then
      some (.input m.now (m.payload.length - 12)) else none := by
  unfold onAudio AudioMessage.parse audioHeaderSize
  split_ifs with htype hcounted hshort hone hfour <;> simp_all <;> omega

theorem playable_iff (payload : List Byte) :
    Win.playable payload = true ↔ 16 < payload.length := by
  rw [Win.playable, List.length_drop, Bool.and_eq_true, decide_eq_true_iff, decide_eq_true_iff]
  omega

/-! ### Without stubs the numbers are the same -/

theorem near_zero : Near 0 (0 * 1000 / second.toNat) := by
  rw [Nat.zero_mul, Nat.zero_div]
  exact ⟨Nat.zero_le _, Nat.zero_le _⟩

theorem Near.max {a b c d : ℕ} (h : Near a b) (h' : Near c d) : Near (max a c) (max b d) := by
  obtain ⟨hab, hba⟩ := h
  obtain ⟨hcd, hdc⟩ := h'
  constructor <;> omega

/-- A silence of the app and the same silence of the bench. -/
theorem near_gap (h : Measures time) (t now : ℤ) :
    Near ((now - t).tdiv 1000000).toNat
      (Win.gap (some (time t)) (time now) * 1000 / second.toNat) := by
  have hclose := h t now
  have hms : ((now - t).tdiv 1000000).toNat = (now - t).toNat / 1000000 := by
    cases now - t with
    | ofNat n => rfl
    | negSucc n =>
        refine (Int.toNat_of_nonpos ?_).trans (Nat.zero_div _).symm
        show -(((n + 1) / 1000000 : ℕ) : ℤ) ≤ 0
        omega
  rw [hms]
  rw [show second.toNat = 4194304 from rfl, second] at hclose
  rw [Win.gap, Option.elim_some, show second.toNat = 4194304 from rfl]
  constructor <;> omega

/-- The largest silence may be rounded before it is taken or after. -/
theorem max_ms (a b : ℕ) : max a b * 1000 / second.toNat =
    max (a * 1000 / second.toNat) (b * 1000 / second.toNat) := by
  rw [show second.toNat = 4194304 from rfl]
  omega

/-- The two sides have noted the same audio, and what is said of the times is said if `P`. -/
structure Same (time : ℤ → ℤ) (P : Prop) (x : Monitor) (y : Log) : Prop where
  count : x.stats.audioInputCount = y.win.pcm
  bytes : x.stats.audioInputBytes = y.win.bytes
  still : x.stats.audioInputCount = 0 → x.stats.audioInputMaxGapMs = 0
  plain : y.Plain
  gap : P → Near x.stats.audioInputMaxGapMs (y.win.gapMax * 1000 / second.toNat)
  last : P → y.win.lastPcm =
    if x.stats.audioInputLastNs = 0 then none else some (time x.stats.audioInputLastNs)
  numbers : List.Forall₂ (fun a b => counts a = counts b ∧ (P → Near a.2.2 b.2.2))
    (audible (x.reports.map appLine)) (audible (y.lines.map benchLine))

theorem same_start (start : ℤ) : Same time P .start ⟨.new start, []⟩ :=
  ⟨rfl, rfl, fun _ => rfl, fun _ => ⟨rfl, rfl⟩, fun _ => near_zero,
    fun _ => rfl, .nil⟩

theorem Same.message (h : Same time P x y) (hstub : ¬ Stub m) (hm : P → m.now ≠ 0)
    (htime : P → Measures time) : Same time P (appStep x (.inl m)) (benchStep time y (.inl m)) := by
  rw [Stub] at hstub
  have hplain := Log.plain_see h.plain (time m.now) m.mtype m.payload
  unfold appStep benchStep
  by_cases hpcm : m.mtype = 0x07 ∧ 16 < m.payload.length
  · have hsome : onAudio m = some (.input m.now (m.payload.length - 12)) := by
      rw [onAudio_eq, if_pos (by omega)]
    simp only [hsome]
    rw [Log.see_pcm hpcm.1 ((playable_iff m.payload).2 hpcm.2)] at hplain ⊢
    refine ⟨congrArg (· + 1) h.count, ?_, (nomatch ·), hplain, fun hp => ?_, fun hp => ?_,
      h.numbers⟩
    · show x.stats.audioInputBytes + (m.payload.length - 12) =
        y.win.bytes + (m.payload.drop 12).length
      rw [h.bytes, List.length_drop]
    · have hlast := h.last hp
      have hnear := near_gap (htime hp) x.stats.audioInputLastNs m.now
      show Near (if _ ∧ _ then _ else _)
        (max y.win.gapMax (Win.gap y.win.lastPcm (time m.now)) * 1000 / second.toNat)
      rw [max_ms, hlast]
      by_cases hfirst : x.stats.audioInputLastNs = 0
      · rw [if_neg fun hand => hand.1 hfirst, if_pos hfirst]
        simpa [Win.gap] using h.gap hp
      · have hmax := (h.gap hp).max hnear
        rw [if_neg hfirst]
        convert hmax using 1
        split_ifs <;> omega
    · show some (time m.now) = if m.now = 0 then none else some (time m.now)
      rw [if_neg (hm hp)]
  · have hnone : onAudio m = none := by
      rw [onAudio_eq, if_neg (by omega)]
    simp only [hnone]
    by_cases hvideo : m.mtype = 0x06
    · rw [Log.see_video hvideo] at hplain ⊢
      exact ⟨h.count, h.bytes, h.still, hplain, h.gap, h.last, h.numbers⟩
    · rw [Log.see_other hvideo fun hp => hpcm ⟨hp.1, (playable_iff m.payload).1 hp.2⟩]
      exact h

/-- The worker and the queue do not touch what came in. -/
theorem input_of_other {e : AudioStats.Event} (he : Other e) (x : Monitor) :
    (x.step e).stats.audioInputCount = x.stats.audioInputCount ∧
      (x.step e).stats.audioInputBytes = x.stats.audioInputBytes ∧
      (x.step e).stats.audioInputMaxGapMs = x.stats.audioInputMaxGapMs ∧
      (x.step e).stats.audioInputLastNs = x.stats.audioInputLastNs ∧
      (x.step e).reports = x.reports := by
  cases e with
  | input now bytes => cases he
  | drain size worker => cases he
  | write ms n expected threw =>
      simp only [Monitor.step, AudioStats.recordWrite]
      split_ifs <;> simp
  | _ => exact ⟨rfl, rfl, rfl, rfl, rfl⟩

theorem Same.other (h : Same time P x y) (e : { e : AudioStats.Event // Other e }) :
    Same time P (appStep x (.inr e)) (benchStep time y (.inr e)) := by
  obtain ⟨hcount, hbytes, hgap, hlast, hreports⟩ := input_of_other e.2 x
  refine ⟨hcount.trans h.count, hbytes.trans h.bytes, fun hzero => ?_, h.plain, fun hp => ?_,
    fun hp => ?_, ?_⟩
  · exact hgap.trans (h.still (hcount.symm.trans hzero))
  · exact hgap ▸ h.gap hp
  · exact hlast ▸ h.last hp
  · exact hreports ▸ h.numbers

/-- No stub among the messages, and, if `P`, no message at time zero. -/
def Fine (P : Prop) (hs : List Happening) : Prop :=
  ∀ m : Noted, .inl m ∈ hs → ¬ Stub m ∧ (P → m.now ≠ 0)

theorem Same.events {hs : List Happening} (h : Same time P x y) (hhs : Fine P hs)
    (htime : P → Measures time) : Same time P (run appStep x hs) (run (benchStep time) y hs) := by
  induction hs generalizing x y with
  | nil => exact h
  | cons e hs ih =>
      have hrest : Fine P hs := fun m hm => hhs m (List.mem_cons_of_mem e hm)
      cases e with
      | inl m =>
          obtain ⟨hstub, hm⟩ := hhs m List.mem_cons_self
          exact ih (h.message hstub hm htime) hrest
      | inr e => exact ih (h.other e) hrest

theorem audible_append (ns ms : List Numbers) : audible (ns ++ ms) = audible ns ++ audible ms :=
  List.filter_append ..

theorem audible_singleton {n : Numbers} (h : n.1 = 0) : audible [n] = [] := by
  simp [audible, h]

theorem audible_singleton_of_ne {n : Numbers} (h : n.1 ≠ 0) : audible [n] = [n] := by
  simp [audible, h]

/-- What a drain prints of the audio, and what it leaves. -/
theorem drain_audible (x : Monitor) (size : ℕ) (worker : Option String) :
    audible ((x.step (.drain size worker)).reports.map appLine) =
        audible (x.reports.map appLine) ++ audible [(x.stats.audioInputCount,
          x.stats.audioInputBytes, x.stats.audioInputMaxGapMs)] ∧
      (x.step (.drain size worker)).stats.audioInputCount = 0 ∧
      (x.step (.drain size worker)).stats.audioInputLastNs = x.stats.audioInputLastNs ∧
      ((x.stats.audioInputCount = 0 →
          x.stats.audioInputBytes = 0 ∧ x.stats.audioInputMaxGapMs = 0) →
        (x.step (.drain size worker)).stats.audioInputBytes = 0 ∧
          (x.step (.drain size worker)).stats.audioInputMaxGapMs = 0) := by
  by_cases h : Monitor.Silent x.stats worker
  · have hcount := h.2.1
    rw [Monitor.step, Monitor.drain_of_silent h]
    refine ⟨?_, hcount, rfl, fun hplain => hplain hcount⟩
    rw [Option.toList_none, List.append_nil, audible_singleton hcount, List.append_nil]
  · rw [Monitor.step, Monitor.drain_of_loud h]
    refine ⟨?_, rfl, rfl, fun _ => ⟨rfl, rfl⟩⟩
    rw [Option.toList_some, List.map_append, audible_append]
    rfl

/-- What a forced tick prints of the audio, and what it leaves. -/
theorem tick_audible (y : Log) (now : ℤ) :
    audible ((y.tick true now).lines.map benchLine) =
        audible (y.lines.map benchLine) ++
          audible [(y.win.pcm, y.win.bytes, y.win.gapMax * 1000 / second.toNat)] ∧
      (y.tick true now).win = { Win.new now with lastPcm := y.win.lastPcm } := by
  have htick : y.win.tick true now =
      (if y.win.pcm ≠ 0 ∨ y.win.video ≠ 0 then
        some ⟨y.win.pcm, y.win.bytes, y.win.gapMax, y.win.video, now - y.win.start⟩ else none,
        { Win.new now with lastPcm := y.win.lastPcm }) := by
    simp [Win.tick, Win.new]
  refine ⟨?_, by rw [Log.tick, htick]⟩
  rw [Log.tick, htick, List.map_append, audible_append]
  split_ifs with h
  · rfl
  · rw [audible_singleton (not_not.1 fun hpcm => h (.inl hpcm))]
    rfl

/-- Both sides print the same, or nothing. -/
theorem Same.window (h : Same time P x y) (hw : Fine P w.events) (htime : P → Measures time) :
    Same time P (appWindow x w) (benchWindow time y w) := by
  have hs := h.events hw htime
  unfold appWindow benchWindow
  generalize run appStep x w.events = x' at hs ⊢
  generalize run (benchStep time) y w.events = y' at hs ⊢
  obtain ⟨hlines, hwin⟩ := tick_audible y' (time w.stop)
  obtain ⟨hreports, hcount, hlast, hrest⟩ := drain_audible x' w.size w.worker
  obtain ⟨hbytes, hgap⟩ := hrest fun hzero =>
    ⟨hs.bytes.trans (hs.plain (hs.count.symm.trans hzero)).1, hs.still hzero⟩
  constructor
  · rw [hcount, hwin]
    rfl
  · rw [hbytes, hwin]
    rfl
  · exact fun _ => hgap
  · rw [Log.Plain, hwin]
    exact fun _ => ⟨rfl, rfl⟩
  · intro _
    rw [hgap, hwin]
    exact near_zero
  · intro hp
    rw [hlast, hwin]
    exact hs.last hp
  · rw [hreports, hlines]
    refine List.rel_append hs.numbers ?_
    rw [hs.count, hs.bytes]
    by_cases hzero : y'.win.pcm = 0
    · rw [audible_singleton hzero, audible_singleton hzero]
      exact .nil
    · rw [audible_singleton_of_ne hzero, audible_singleton_of_ne hzero]
      exact .cons ⟨rfl, hs.gap⟩ .nil

theorem Same.windows {ws : List Window} (h : Same time P x y) (hws : ∀ w ∈ ws, Fine P w.events)
    (htime : P → Measures time) :
    Same time P (run appWindow x ws) (run (benchWindow time) y ws) := by
  induction ws generalizing x y with
  | nil => exact h
  | cons w ws ih =>
      exact ih (h.window (hws w List.mem_cons_self) htime) fun w' hw' =>
        hws w' (List.mem_cons_of_mem w hw')

/-! ### With a stub they differ -/

/-- The chunks in some numbers. -/
def chunks (ns : List Numbers) : ℕ := (ns.map Prod.fst).sum

theorem chunks_append (ns ms : List Numbers) : chunks (ns ++ ms) = chunks ns + chunks ms := by
  simp [chunks]

theorem chunks_audible_singleton (n : Numbers) : chunks (audible [n]) = n.1 := by
  by_cases h : n.1 = 0
  · rw [audible_singleton h, h]
    rfl
  · simp [audible, h, chunks]

/-- A happening that the app counts. -/
def appCounts : Happening → Bool
  | .inl m => (onAudio m).isSome
  | .inr _ => false

/-- A happening that the bench counts. -/
def benchCounts : Happening → Bool
  | .inl m => m.mtype = 0x07 && Win.playable m.payload
  | .inr _ => false

/-- A stub. -/
def stub : Happening → Bool
  | .inl m => decide (Stub m)
  | .inr _ => false

theorem appStep_count (x : Monitor) (e : Happening) :
    (appStep x e).reports = x.reports ∧
      (appStep x e).stats.audioInputCount = x.stats.audioInputCount + (appCounts e).toNat := by
  cases e with
  | inl m =>
      cases honAudio : onAudio m with
      | none => simp [appStep, appCounts, honAudio]
      | some e =>
          rw [onAudio_eq] at honAudio
          split_ifs at honAudio with h
          obtain rfl := Option.some.inj honAudio
          simp [appStep, appCounts, onAudio_eq, h, Monitor.step, AudioStats.recordAudioInput]
  | inr e =>
      obtain ⟨hcount, -, -, -, hreports⟩ := input_of_other e.2 x
      exact ⟨hreports, hcount⟩

theorem benchStep_count (time : ℤ → ℤ) (y : Log) (e : Happening) :
    (benchStep time y e).lines = y.lines ∧
      (benchStep time y e).win.pcm = y.win.pcm + (benchCounts e).toNat := by
  cases e with
  | inl m =>
      refine ⟨rfl, ?_⟩
      simp only [benchStep, Win.see, benchCounts]
      split_ifs <;> simp_all
  | inr e => exact ⟨rfl, rfl⟩

theorem countP_toNat (p : Happening → Bool) (e : Happening) (hs : List Happening) :
    (e :: hs).countP p = (p e).toNat + hs.countP p := by
  cases hp : p e <;> simp [hp, Nat.add_comm]

theorem events_count (x : Monitor) (hs : List Happening) :
    (run appStep x hs).reports = x.reports ∧
      (run appStep x hs).stats.audioInputCount =
        x.stats.audioInputCount + hs.countP appCounts := by
  induction hs generalizing x with
  | nil => exact ⟨rfl, rfl⟩
  | cons e hs ih =>
      obtain ⟨hreports, hcount⟩ := appStep_count x e
      obtain ⟨hrest, hsum⟩ := ih (appStep x e)
      refine ⟨hrest.trans hreports, ?_⟩
      rw [run_cons, hsum, hcount, countP_toNat, Nat.add_assoc]

theorem log_count (time : ℤ → ℤ) (y : Log) (hs : List Happening) :
    (run (benchStep time) y hs).lines = y.lines ∧
      (run (benchStep time) y hs).win.pcm = y.win.pcm + hs.countP benchCounts := by
  induction hs generalizing y with
  | nil => exact ⟨rfl, rfl⟩
  | cons e hs ih =>
      obtain ⟨hlines, hpcm⟩ := benchStep_count time y e
      obtain ⟨hrest, hsum⟩ := ih (benchStep time y e)
      refine ⟨hrest.trans hlines, ?_⟩
      rw [run_cons, hsum, hpcm, countP_toNat, Nat.add_assoc]

/-- All that happens. -/
def everything (ws : List Window) : List Happening := ws.flatMap Window.events

theorem countP_everything (p : Happening → Bool) (w : Window) (ws : List Window) :
    (everything (w :: ws)).countP p = w.events.countP p + (everything ws).countP p :=
  List.countP_append ..

theorem chunks_app {ws : List Window} (hx : x.stats.audioInputCount = 0) :
    chunks (audible ((run appWindow x ws).reports.map appLine)) =
      chunks (audible (x.reports.map appLine)) + (everything ws).countP appCounts := by
  induction ws generalizing x with
  | nil => rfl
  | cons w ws ih =>
      obtain ⟨hreports, hcount⟩ := events_count x w.events
      obtain ⟨hdrained, hzero, -, -⟩ := drain_audible (run appStep x w.events) w.size w.worker
      have hwindow : (appWindow x w).stats.audioInputCount = 0 := hzero
      rw [run_cons, ih hwindow, appWindow, hdrained, chunks_append, chunks_audible_singleton,
        hreports, hcount, hx, countP_everything, Nat.zero_add, Nat.add_assoc]

theorem chunks_bench {ws : List Window} (hy : y.win.pcm = 0) :
    chunks (audible ((run (benchWindow time) y ws).lines.map benchLine)) =
      chunks (audible (y.lines.map benchLine)) + (everything ws).countP benchCounts := by
  induction ws generalizing y with
  | nil => rfl
  | cons w ws ih =>
      obtain ⟨hlines, hpcm⟩ := log_count time y w.events
      obtain ⟨hticked, hwin⟩ := tick_audible (run (benchStep time) y w.events) (time w.stop)
      have hzero : (benchWindow time y w).win.pcm = 0 := by
        rw [benchWindow, hwin]
        rfl
      rw [run_cons, ih hzero, benchWindow, hticked, chunks_append, chunks_audible_singleton,
        hlines, hpcm, hy, countP_everything, Nat.zero_add, Nat.add_assoc]

theorem toNat_decide (p : Prop) [Decidable p] : (decide p).toNat = if p then 1 else 0 :=
  Bool.cond_decide p 1 0

/-- The app counts what the bench counts, and the stubs. -/
theorem appCounts_toNat (e : Happening) :
    (appCounts e).toNat = (benchCounts e).toNat + (stub e).toNat := by
  cases e with
  | inl m =>
      have happ : (appCounts (.inl m)).toNat = if m.mtype = 0x07 ∧ 12 < m.payload.length ∧
          m.payload.length ≠ 13 ∧ m.payload.length ≠ 16 then 1 else 0 := by
        rw [appCounts, onAudio_eq]
        split_ifs <;> rfl
      have hbench : (benchCounts (.inl m)).toNat =
          if m.mtype = 0x07 ∧ 16 < m.payload.length then 1 else 0 := by
        rw [benchCounts, ← Bool.decide_coe (Win.playable m.payload), ← Bool.decide_and]
        simp only [playable_iff, toNat_decide]
      have hstub : (stub (.inl m)).toNat = if m.mtype = 0x07 ∧
          (m.payload.length = 14 ∨ m.payload.length = 15) then 1 else 0 := by
        rw [stub, toNat_decide]
        exact if_congr Iff.rfl rfl rfl
      rw [happ, hbench, hstub]
      split_ifs <;> omega
  | inr e => rfl

theorem countP_app (hs : List Happening) :
    hs.countP appCounts = hs.countP benchCounts + hs.countP stub := by
  induction hs with
  | nil => rfl
  | cons e hs ih =>
      rw [countP_toNat, countP_toNat, countP_toNat, ih, appCounts_toNat]
      omega

/-- The chunks are counted by the counts. -/
theorem chunks_eq (ns : List Numbers) : chunks ns = ((ns.map counts).map Prod.fst).sum := by
  rw [List.map_map]
  rfl

/-- **The app and the bench count the same exactly when there is no stub.**  Without stubs they
also measure the same silences, but for a millisecond. -/
theorem numbers_eq_iff (time : ℤ → ℤ) (start : ℤ) (ws : List Window) :
    ((appNumbers ws).map counts = (benchNumbers time start ws).map counts ↔
        ∀ w ∈ ws, ∀ m : Noted, .inl m ∈ w.events → ¬ Stub m) ∧
      ((∀ w ∈ ws, ∀ m : Noted, .inl m ∈ w.events → ¬ Stub m) → Measures time →
        (∀ w ∈ ws, ∀ m : Noted, .inl m ∈ w.events → m.now ≠ 0) →
          List.Forall₂ (fun a b => counts a = counts b ∧ Near a.2.2 b.2.2)
            (appNumbers ws) (benchNumbers time start ws)) := by
  refine ⟨⟨?_, ?_⟩, ?_⟩
  · intro h w hw m hm hstub
    have hchunks : chunks (appNumbers ws) = chunks (benchNumbers time start ws) := by
      rw [chunks_eq, h, ← chunks_eq]
    rw [appNumbers, benchNumbers, chunks_app rfl, chunks_bench rfl, countP_app] at hchunks
    have hnone : (everything ws).countP stub = 0 := by
      have hstart : chunks (audible ((⟨.new start, []⟩ : Log).lines.map benchLine)) =
        chunks (audible (Monitor.start.reports.map appLine)) := rfl
      omega
    have hmem : .inl m ∈ everything ws := List.mem_flatMap.2 ⟨w, hw, hm⟩
    exact List.countP_eq_zero.1 hnone _ hmem (decide_eq_true hstub)
  · intro h
    have hstart : Same time False .start ⟨.new start, []⟩ := same_start start
    have hfine : ∀ w ∈ ws, Fine False w.events := fun w hw m hm => ⟨h w hw m hm, False.elim⟩
    have hcounts := (hstart.windows hfine False.elim).numbers.imp fun _ _ hab => hab.1
    rwa [← List.forall₂_eq_eq_eq, List.forall₂_map_left_iff, List.forall₂_map_right_iff]
  · intro h htime hzero
    have hstart : Same time True .start ⟨.new start, []⟩ := same_start start
    have hfine : ∀ w ∈ ws, Fine True w.events :=
      fun w hw m hm => ⟨h w hw m hm, fun _ => hzero w hw m hm⟩
    exact (hstart.windows hfine fun _ => htime).numbers.imp fun _ _ hab => ⟨hab.1, hab.2 trivial⟩

/-- An audio message of `n` bytes. -/
def silence (n : ℕ) (now : ℤ) : Noted := ⟨0x07, List.replicate n 0, now⟩

@[simp] theorem silence_now (n : ℕ) (now : ℤ) : (silence n now).now = now := rfl

@[simp] theorem length_silence (n : ℕ) (now : ℤ) : (silence n now).payload.length = n :=
  List.length_replicate

/-- Five seconds with two chunks, the first of them slow to write, and five with a video frame
and a chunk of three bytes. -/
def stubbed : List Window :=
  [⟨[.inl (silence 320 1000000), .inr ⟨.write 25 308 308 false, trivial⟩,
      .inl (silence 320 21000000)], 5000000000, 1, none⟩,
    ⟨[.inl ⟨0x06, [], 5100000000⟩, .inl (silence 15 5200000000)], 10000000000, 0, none⟩]

/-- The float nearest to the time, on a day when `System.nanoTime()` began. -/
def nearest (t : ℤ) : ℤ := ((1756000000000000000 + t) * second + 500000000) / 1000000000

theorem measures_nearest : Measures nearest := by
  intro t now
  rw [show second.toNat = 4194304 from rfl, nearest, nearest, second]
  omega

theorem numbers_eq_iff_stubbed :
    (appNumbers stubbed).map counts ≠ (benchNumbers nearest 0 stubbed).map counts ∧
      List.Forall₂ (fun a b => counts a = counts b ∧ Near a.2.2 b.2.2)
        (appNumbers stubbed.dropLast) (benchNumbers nearest 0 stubbed.dropLast) := by
  constructor
  · intro h
    exact (numbers_eq_iff nearest 0 stubbed).1.1 h _
      (List.mem_cons_of_mem _ List.mem_cons_self) (silence 15 5200000000)
      (List.mem_cons_of_mem _ List.mem_cons_self) ⟨rfl, .inr (length_silence ..)⟩
  · exact (numbers_eq_iff nearest 0 stubbed.dropLast).2 (by simp [stubbed, Stub])
      measures_nearest (by simp [stubbed])

/-- Two chunks that are 20 ms apart: the app prints `20`, and the bench `19`. -/
example : (appNumbers stubbed.dropLast).map (·.2.2) = [20] ∧
    (benchNumbers nearest 0 stubbed.dropLast).map (·.2.2) = [19] := by
  decide +kernel

end Bench
end Carlinkit
