/-
# The windows of the bench

`tools/session.py` prints a line for every window of five seconds: how many PCM messages came,
how many bytes, and the largest silence, "mirroring the Android heartbeat so a bench run and a
run in the car produce the same numbers and can be compared directly".

`lines_session` says that the lines cut the traffic of a session into blocks, with nothing left
over: also a silence over the border of two windows is in one of them, because `last_pcm` is not
reset.  `numbers_eq_iff` compares them with the reports of `drainAudioStats`.

The times of the script are floats.  From 2004 on all values of `time.time()` are multiples of
`2⁻²²` s, and the script subtracts and compares such floats without rounding; so a time is a
number of these units here.
-/

import Carlinkit.App.AudioStats
import Carlinkit.Protocol.Audio
import Mathlib.Algebra.Group.Prod

namespace Carlinkit
namespace Bench

open Framing Machine Protocol App

/-- A second, in units of `2⁻²²` s. -/
def second : ℤ := 4194304

/-- `win`. -/
structure Win where
  start : ℤ
  pcm : ℕ
  bytes : ℕ
  gapMax : ℕ
  video : ℕ
  lastPcm : Option ℤ
deriving DecidableEq, Repr

/-- A line of `window_tick`. -/
structure Line where
  pcm : ℕ
  bytes : ℕ
  gapMax : ℕ
  video : ℕ
  span : ℤ
deriving DecidableEq, Repr

/-- `int(win["gap_max"] * 1000)`, the `maxGap` of a line; the product is exact for a silence of
less than 24 days. -/
def Line.maxGap (l : Line) : ℕ := l.gapMax * 1000 / second.toNat

/-- `WINDOW_S`. -/
def windowS : ℤ := 5 * second

namespace Win

/-- `win` at the beginning. -/
def new (start : ℤ) : Win := ⟨start, 0, 0, 0, 0, none⟩

/-- `window_tick(force)`. -/
def tick (force : Bool) (now : ℤ) (w : Win) : Option Line × Win :=
  if force = false ∧ now - w.start < windowS then (none, w)
  else
    (if w.pcm ≠ 0 ∨ w.video ≠ 0 then
      some ⟨w.pcm, w.bytes, w.gapMax, w.video, now - w.start⟩ else none,
      { w with start := now, pcm := 0, bytes := 0, gapMax := 0, video := 0 })

/-- The body of an AUDIO_DATA message that `main` takes for PCM. -/
def playable (payload : List Byte) : Bool := 12 ≤ payload.length && 4 < (payload.drop 12).length

/-- A silence of `now - last`; a clock that was set back makes none. -/
def gap (last : Option ℤ) (now : ℤ) : ℕ := last.elim 0 fun t => (now - t).toNat

/-- What `main` notes of a message. -/
def see (now : ℤ) (mtype : ℕ) (payload : List Byte) (w : Win) : Win :=
  if mtype = 0x06 then { w with video := w.video + 1 }
  else if mtype = 0x07 ∧ playable payload = true then
    { w with
      gapMax := if w.gapMax < gap w.lastPcm now then gap w.lastPcm now else w.gapMax
      lastPcm := some now
      pcm := w.pcm + 1
      bytes := w.bytes + (payload.drop 12).length }
  else w

end Win

/-- A message, the time at which it is noted, and the time of the `window_tick` after it. -/
structure Iteration where
  mtype : ℕ
  payload : List Byte
  now : ℤ
  tickAt : ℤ

/-- `win`, and the lines so far. -/
structure Log where
  win : Win
  lines : List Line
deriving DecidableEq, Repr

namespace Log

/-- `window_tick(force)`. -/
def tick (force : Bool) (now : ℤ) (x : Log) : Log :=
  ⟨(x.win.tick force now).2, x.lines ++ (x.win.tick force now).1.toList⟩

/-- One iteration of the loop of `main`. -/
def step (x : Log) (m : Iteration) : Log :=
  tick false m.tickAt { x with win := x.win.see m.now m.mtype m.payload }

/-- The lines of a session; the last `window_tick` is forced. -/
def session (start : ℤ) (ms : List Iteration) (stop : ℤ) : List Line :=
  ((run step ⟨.new start, []⟩ ms).tick true stop).lines

/-! ### The lines of a session -/

/-- Messages, bytes, the largest silence in units, and video frames. -/
abbrev Traffic := ℕ × ℕ × Peak × ℕ

/-- The numbers of a line. -/
def traffic (l : Line) : Traffic := (l.pcm, l.bytes, ⟨l.gapMax⟩, l.video)

/-- What a message adds; `last` is the time of the last PCM message. -/
def amount (last : Option ℤ) (m : Iteration) : Option Traffic :=
  if m.mtype = 0x06 then some (0, 0, 0, 1)
  else if m.mtype = 0x07 ∧ Win.playable m.payload = true then
    some (1, (m.payload.drop 12).length, ⟨Win.gap last m.now⟩, 0)
  else none

/-- The time of the last PCM message after a message. -/
def lastAfter (last : Option ℤ) (m : Iteration) : Option ℤ :=
  if m.mtype ≠ 0x06 ∧ m.mtype = 0x07 ∧ Win.playable m.payload = true then some m.now else last

/-- What the messages add, in order. -/
def amounts (last : Option ℤ) : List Iteration → List Traffic
  | [] => []
  | m :: ms => (amount last m).toList ++ amounts (lastAfter last m) ms

/-- The window as a meter. -/
def meter (x : Log) : Meter Traffic :=
  ⟨(x.win.pcm, x.win.bytes, ⟨x.win.gapMax⟩, x.win.video), x.lines.map traffic⟩

/-- There are no bytes and there is no silence without a message. -/
def Plain (x : Log) : Prop := x.win.pcm = 0 → x.win.bytes = 0 ∧ x.win.gapMax = 0

variable {x : Log} {as : List Traffic}

theorem see_video {mtype : ℕ} (h : mtype = 0x06) (now : ℤ) (payload : List Byte) (w : Win) :
    w.see now mtype payload = { w with video := w.video + 1 } := if_pos h

theorem see_pcm {mtype : ℕ} {payload : List Byte} (h : mtype = 0x07)
    (hpcm : Win.playable payload = true) (now : ℤ) (w : Win) :
    w.see now mtype payload =
      { w with
        gapMax := max w.gapMax (Win.gap w.lastPcm now), lastPcm := some now, pcm := w.pcm + 1,
        bytes := w.bytes + (payload.drop 12).length } := by
  have hgap : (if w.gapMax < Win.gap w.lastPcm now then Win.gap w.lastPcm now else w.gapMax) =
      max w.gapMax (Win.gap w.lastPcm now) := by
    split_ifs <;> omega
  rw [Win.see, if_neg (by omega), if_pos ⟨h, hpcm⟩, hgap]

theorem see_other {mtype : ℕ} {payload : List Byte} (hvideo : mtype ≠ 0x06)
    (hpcm : ¬ (mtype = 0x07 ∧ Win.playable payload = true)) (now : ℤ) (w : Win) :
    w.see now mtype payload = w := by
  rw [Win.see, if_neg hvideo, if_neg hpcm]

theorem plain_see (h : x.Plain) (now : ℤ) (mtype : ℕ) (payload : List Byte) :
    Plain { x with win := x.win.see now mtype payload } := by
  by_cases hvideo : mtype = 0x06
  · rw [see_video hvideo]
    exact h
  · by_cases hpcm : mtype = 0x07 ∧ Win.playable payload = true
    · rw [see_pcm hpcm.1 hpcm.2]
      exact fun hzero => absurd hzero (Nat.succ_ne_zero _)
    · rw [see_other hvideo hpcm]
      exact h

theorem last_see (now : ℤ) (mtype : ℕ) (payload : List Byte) (w : Win) (tickAt : ℤ) :
    (w.see now mtype payload).lastPcm = lastAfter w.lastPcm ⟨mtype, payload, now, tickAt⟩ := by
  unfold Win.see lastAfter
  split_ifs <;> simp_all

theorem last_tick (x : Log) (force : Bool) (now : ℤ) :
    (x.tick force now).win.lastPcm = x.win.lastPcm := by
  unfold tick Win.tick
  split_ifs <;> rfl

/-- A message adds its amount to the meter. -/
theorem cuts_see (hx : x.meter.Cuts as) (m : Iteration) :
    (meter { x with win := x.win.see m.now m.mtype m.payload }).Cuts
      (as ++ (amount x.win.lastPcm m).toList) := by
  unfold amount
  split_ifs with hvideo hpcm
  · rw [see_video hvideo]
    simpa [meter, Meter.step] using hx.add (0, 0, 0, 1)
  · rw [see_pcm hpcm.1 hpcm.2]
    exact hx.add (1, (m.payload.drop 12).length, ⟨Win.gap x.win.lastPcm m.now⟩, 0)
  · rw [see_other hvideo hpcm, Option.toList_none, List.append_nil]
    exact hx

/-- A tick reads the meter, or there was nothing in it, or it is too early. -/
theorem cuts_tick (h : x.Plain) (hx : x.meter.Cuts as) (force : Bool) (now : ℤ) :
    (x.tick force now).Plain ∧ (x.tick force now).meter.Cuts as := by
  unfold tick Win.tick
  split_ifs with hearly hsome
  · exact ⟨h, by simpa using hx⟩
  · refine ⟨fun _ => ⟨rfl, rfl⟩, ?_⟩
    rw [meter, List.map_append]
    exact hx.read
  · refine ⟨fun _ => ⟨rfl, rfl⟩, ?_⟩
    obtain ⟨hpcm, hvideo⟩ := not_or.1 hsome
    have hzero : x.meter.pending = 0 := by
      have hplain := h (by simpa using hpcm)
      simp_all [meter, Prod.ext_iff, Peak.ext_iff]
    have hmeter : x.meter = ⟨0, x.meter.readings⟩ := by rw [← hzero]
    rw [hmeter] at hx
    rw [meter, Option.toList_none, List.append_nil]
    exact hx

theorem cuts_run (h : x.Plain) (hx : x.meter.Cuts as) (ms : List Iteration) :
    (run step x ms).Plain ∧ (run step x ms).meter.Cuts (as ++ amounts x.win.lastPcm ms) := by
  induction ms generalizing x as with
  | nil => exact ⟨h, by simpa [amounts] using hx⟩
  | cons m ms ih =>
      obtain ⟨hplain, hcuts⟩ := cuts_tick (plain_see h m.now m.mtype m.payload) (cuts_see hx m)
        false m.tickAt
      have hrest := ih hplain hcuts
      rw [last_tick, last_see m.now m.mtype m.payload x.win m.tickAt, List.append_assoc] at hrest
      exact hrest

/-- A message that adds something is one message. -/
theorem one_of_mem_amounts {last : Option ℤ} {ms : List Iteration} {a : Traffic}
    (ha : a ∈ amounts last ms) : a.1 + a.2.2.2 = 1 := by
  induction ms generalizing last with
  | nil => cases ha
  | cons m ms ih =>
      rcases List.mem_append.1 ha with ha | ha
      · unfold amount at ha
        split_ifs at ha <;> simp_all
      · exact ih ha

theorem length_eq_of_ones {as : List Traffic} (h : ∀ a ∈ as, a.1 + a.2.2.2 = 1) :
    as.sum.1 + as.sum.2.2.2 = as.length := by
  induction as with
  | nil => rfl
  | cons a as ih =>
      have hrest := ih fun b hb => h b (List.mem_cons_of_mem a hb)
      have hone := h a List.mem_cons_self
      rw [List.sum_cons, List.length_cons]
      show a.1 + as.sum.1 + (a.2.2.2 + as.sum.2.2.2) = as.length + 1
      omega

/-- **The lines of a session are its traffic, cut into blocks**, with nothing left over. -/
theorem lines_session (start : ℤ) (ms : List Iteration) (stop : ℤ) :
    ∃ blocks : List (List Traffic), amounts none ms = blocks.flatten ∧
      (session start ms stop).map traffic = blocks.map List.sum := by
  obtain ⟨hplain, hcuts⟩ := cuts_run (x := ⟨.new start, []⟩) (fun _ => ⟨rfl, rfl⟩)
    (Meter.cuts_new (M := Traffic)) ms
  obtain ⟨blocks, rest, hblocks, hreadings, hpending⟩ := (cuts_tick hplain hcuts true stop).2
  have hzero : rest.sum = 0 := by
    rw [← hpending]
    simp [tick, Win.tick, meter, Prod.ext_iff, Peak.ext_iff]
  have hamounts : amounts none ms = blocks.flatten ++ rest := hblocks
  have hrest : rest = [] := by
    have hones : ∀ a ∈ rest, a.1 + a.2.2.2 = 1 := fun a ha =>
      one_of_mem_amounts (hamounts ▸ List.mem_append_right _ ha)
    have hlength := length_eq_of_ones hones
    rw [hzero] at hlength
    exact List.length_eq_zero_iff.1 hlength.symm
  refine ⟨blocks, by rw [hamounts, hrest, List.append_nil], hreadings⟩

end Log
end Bench
end Carlinkit
