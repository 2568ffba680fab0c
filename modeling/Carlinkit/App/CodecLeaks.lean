/-
# How many codecs live

`OMXVideoCodec` makes its native codec in the constructor and deletes it in `shutdown`, and
each has a decoder thread of its own.  `stop` shuts down the codec in use.  But a `start`
that got as far as the codec and fails in `setSurface` or `init` lets go of it with no
`shutdown`, and `onVideoFrame` calls `start` again for the next frame.

`alive_run` counts: there are as many native codecs as such failures, and one more while the
renderer runs.
-/

import Carlinkit.App.VideoRenderer
import Carlinkit.Machine.Run

namespace Carlinkit
namespace App
namespace VideoRenderer

open Framing Machine

/-- A call of the renderer; the outcomes of the native side are part of it. -/
inductive Call
  | start (cached : Bool) (o : Started)
  | stop
  | setSurfaceView (view : Option ℕ)
  | onFrame (f : Frame) (ms : ℕ)
  | reinjectParameterSets (parameterSets : Option (List Byte))
  | drainDecodeStats

/-- One call. -/
def call (r : VideoRenderer) : Call → VideoRenderer
  | .start cached o => (r.start cached o).2
  | .stop => r.stop
  | .setSurfaceView view => r.setSurfaceView view
  | .onFrame f ms => r.onFrame f ms
  | .reinjectParameterSets parameterSets => r.reinjectParameterSets parameterSets
  | .drainDecodeStats => r.drainDecodeStats.2

/-- The native codecs that were not deleted. -/
def alive (r : VideoRenderer) : List Codec :=
  (r.retired ++ r.codec.toList).filter fun c => !c.deleted

/-- The codecs that the renderer let go of with no `shutdown`. -/
def lost (r : VideoRenderer) : List Codec := r.retired.filter fun c => !c.deleted

/-- `start` makes a codec, and `setSurface` or `init` fails. -/
def Leaks (r : VideoRenderer) : Call → Prop
  | .start _ o =>
      r.surfaceView ≠ none ∧ o.valid = true ∧ r.running = false ∧ o.init ≠ .ok
  | _ => False

instance (r : VideoRenderer) : ∀ c, Decidable (r.Leaks c)
  | .start .. => inferInstanceAs (Decidable (_ ∧ _ ∧ _ ∧ _))
  | .stop | .setSurfaceView _ | .onFrame .. | .reinjectParameterSets _ | .drainDecodeStats =>
      .isFalse id

/-- The codec in use lives, the others were deleted, and there is one only while the renderer
runs. -/
structure Settled (r : VideoRenderer) : Prop where
  codec : ∀ c ∈ r.codec, c.deleted = false
  retired : ∀ c ∈ r.retired, c.deleted = true
  one : r.alive.length ≤ 1
  stopped : r.running = false → r.alive = []

instance (r : VideoRenderer) : Decidable r.Settled :=
  decidable_of_iff ((∀ c ∈ r.codec, c.deleted = false) ∧ (∀ c ∈ r.retired, c.deleted = true) ∧
      r.alive.length ≤ 1 ∧ (r.running = false → r.alive = []))
    ⟨fun h => ⟨h.1, h.2.1, h.2.2.1, h.2.2.2⟩, fun h => ⟨h.codec, h.retired, h.one, h.stopped⟩⟩

/-- There is a codec exactly while the renderer runs, and it was not shut down. -/
structure Sound (r : VideoRenderer) : Prop where
  running : r.running = r.codec.isSome
  codec : ∀ c ∈ r.codec, c.deleted = false

variable {r : VideoRenderer}

/-! ## One call -/

/-- What a call does to the codecs, and whether it leaks one. -/
inductive CodecMove (r : VideoRenderer) : Bool → VideoRenderer → Prop
  | keep {r' : VideoRenderer} (running : r'.running = r.running)
      (retired : r'.retired = r.retired)
      (codec : r'.codec.map Codec.deleted = r.codec.map Codec.deleted) : CodecMove r false r'
  | make {r' : VideoRenderer} (c : Codec) (idle : r.running = false)
      (running : r'.running = true) (retired : r'.retired = r.retired)
      (codec : r'.codec = some c) (fresh : c.deleted = false) : CodecMove r false r'
  | leak {r' : VideoRenderer} (c : Codec) (idle : r.running = false)
      (running : r'.running = false) (retired : r'.retired = r.retired ++ [c])
      (codec : r'.codec = none) (fresh : c.deleted = false) : CodecMove r true r'
  | delete {r' : VideoRenderer} (running : r'.running = false)
      (retired : r'.retired = r.retired ++ r.codec.toList.map fun c => { c with deleted := true })
      (codec : r'.codec = none) : CodecMove r false r'

theorem codecMove_refl (r : VideoRenderer) : r.CodecMove false r := .keep rfl rfl rfl

theorem codecMove_hand (b : Buffer) (r : VideoRenderer) : r.CodecMove false (r.hand b) :=
  .keep rfl rfl (Option.map_map ..)

theorem codecMove_start (cached : Bool) (o : Started) (r : VideoRenderer) :
    r.CodecMove (decide (r.Leaks (.start cached o))) (r.start cached o).2 := by
  unfold start
  cases hview : r.surfaceView with
  | none =>
      rw [decide_eq_false (by simp [Leaks, hview])]
      exact codecMove_refl r
  | some view =>
      simp only
      split_ifs with hvalid hrunning hinit
      · rw [decide_eq_false (by simp [Leaks, hvalid])]
        exact codecMove_refl r
      · rw [decide_eq_false (by simp [Leaks, hrunning])]
        exact codecMove_refl r
      · rw [decide_eq_false (by simp [Leaks, hinit])]
        exact .make _ (by simpa using hrunning) rfl rfl rfl rfl
      · have hidle : r.running = false := by simpa using hrunning
        rw [decide_eq_true ⟨by simp [hview], by simpa using hvalid, hidle, hinit⟩]
        exact .leak _ hidle hidle rfl rfl rfl

/-- **A call makes a codec, deletes the one in use, leaks a new one, or leaves them alone.** -/
theorem codecMove_call (r : VideoRenderer) (c : Call) :
    r.CodecMove (decide (r.Leaks c)) (r.call c) := by
  cases c with
  | start cached o => exact codecMove_start cached o r
  | stop =>
      simp only [call, stop]
      split_ifs
      · exact .delete rfl rfl rfl
      · exact codecMove_refl r
  | setSurfaceView view => exact .keep rfl rfl rfl
  | onFrame f ms =>
      simp only [call, onFrame]
      split_ifs
      · exact codecMove_hand _ r
      · exact .keep rfl rfl (Option.map_map ..)
      · exact codecMove_refl r
  | reinjectParameterSets parameterSets =>
      simp only [call, reinjectParameterSets]
      split
      · exact codecMove_refl r
      · split_ifs
        · exact codecMove_hand _ r
        · exact codecMove_refl r
  | drainDecodeStats => exact .keep rfl rfl rfl

/-! ## Counting -/

theorem CodecMove.sound {leaks : Bool} {r' : VideoRenderer} (hmove : r.CodecMove leaks r')
    (h : r.Sound) : r'.Sound := by
  cases hmove with
  | keep running retired codec =>
      constructor
      · have hsome := congrArg Option.isSome codec
        rw [Option.isSome_map, Option.isSome_map] at hsome
        rw [running, h.running, hsome]
      · intro c hc
        have hmap : r.codec.map Codec.deleted = some c.deleted := by
          rw [← codec, Option.mem_def.1 hc]
          rfl
        obtain ⟨x, hx, heq⟩ := Option.map_eq_some_iff.1 hmap
        rw [← heq]
        exact h.codec x hx
  | make c idle running retired codec fresh =>
      refine ⟨by rw [running, codec]; rfl, fun x hx => ?_⟩
      rw [codec] at hx
      rwa [← Option.some.inj hx]
  | leak c idle running retired codec fresh =>
      exact ⟨by rw [running, codec]; rfl, fun x hx => by simp [codec] at hx⟩
  | delete running retired codec =>
      exact ⟨by rw [running, codec]; rfl, fun x hx => by simp [codec] at hx⟩

/-- What was let go of stays as it is. -/
theorem CodecMove.retired {leaks : Bool} {r' : VideoRenderer} (hmove : r.CodecMove leaks r') :
    r.retired <+: r'.retired := by
  cases hmove with
  | keep running retired codec => exact retired ▸ List.prefix_refl _
  | make c idle running retired codec fresh => exact retired ▸ List.prefix_refl _
  | leak c idle running retired codec fresh =>
      rw [retired]
      exact List.prefix_append ..
  | delete running retired codec =>
      rw [retired]
      exact List.prefix_append ..

theorem CodecMove.lost {leaks : Bool} {r' : VideoRenderer} (hmove : r.CodecMove leaks r') :
    r'.lost.length = r.lost.length + leaks.toNat := by
  cases hmove with
  | keep running retired codec => rw [VideoRenderer.lost, retired]; rfl
  | make c idle running retired codec fresh => rw [VideoRenderer.lost, retired]; rfl
  | leak c idle running retired codec fresh =>
      simp [VideoRenderer.lost, retired, List.filter_append, fresh]
  | delete running retired codec =>
      have hnone : (r.codec.toList.map fun c : Codec => { c with deleted := true }).filter
          (fun c => !c.deleted) = [] := by
        cases r.codec <;> rfl
      rw [VideoRenderer.lost, retired, List.filter_append, hnone, List.append_nil]
      rfl

/-- The codec in use lives. -/
theorem Sound.alive (h : r.Sound) : r.alive = r.lost ++ r.codec.toList := by
  rw [VideoRenderer.alive, List.filter_append, VideoRenderer.lost]
  congr 1
  refine List.filter_eq_self.2 fun c hc => ?_
  rw [h.codec c (by simpa using hc)]
  rfl

theorem Sound.length_codec (h : r.Sound) : r.codec.toList.length = r.running.toNat := by
  rw [h.running]
  cases r.codec <;> rfl

/-- Nothing is lost exactly when all is settled. -/
theorem Sound.settled_iff_lost (h : r.Sound) : r.Settled ↔ r.lost = [] := by
  constructor
  · intro hsettled
    refine List.filter_eq_nil_iff.2 fun c hc => ?_
    rw [hsettled.retired c hc]
    exact Bool.false_ne_true
  · intro hlost
    have halive : r.alive = r.codec.toList := by rw [h.alive, hlost, List.nil_append]
    refine ⟨h.codec, fun c hc => ?_, ?_, fun hstopped => ?_⟩
    · simpa using List.filter_eq_nil_iff.1 hlost c hc
    · rw [halive, h.length_codec]
      exact Bool.toNat_le _
    · rw [halive, ← List.length_eq_zero_iff, h.length_codec, hstopped]
      rfl

theorem sound_new (fps : ℕ) : (new fps).Sound := ⟨rfl, by simp [new]⟩

theorem sound_call (h : r.Sound) (c : Call) : (r.call c).Sound := (codecMove_call r c).sound h

/-- **How many codecs live.**  One for each failed `start`, and one while the renderer runs. -/
theorem alive_run (fps : ℕ) (cs : List Call) :
    (run call (new fps) cs).alive.length =
      tally call (fun r c => (decide (r.Leaks c)).toNat) (new fps) cs +
        (run call (new fps) cs).running.toNat := by
  have hsound : (run call (new fps) cs).Sound :=
    run_invariant (I := Sound) (fun _ c h => sound_call h c) (sound_new fps) cs
  have hlost := tally_invariant (f := fun r c => (decide (r.Leaks c)).toNat)
    (J := fun r n => r.lost.length = n)
    (fun r c n h => by rw [(codecMove_call r c).lost, h]) (s := new fps) (n := 0) rfl cs
  rw [hsound.alive, List.length_append, hsound.length_codec, hlost, Nat.zero_add]

theorem settled_call_iff (h : r.Sound) (hlost : r.lost = []) (c : Call) :
    (r.call c).Settled ↔ ¬ r.Leaks c := by
  rw [(sound_call h c).settled_iff_lost, ← List.length_eq_zero_iff, (codecMove_call r c).lost,
    hlost]
  by_cases hleaks : r.Leaks c <;> simp [hleaks]

/-- **Each codec is deleted once, before the next one.**  For every sequence of calls and
every outcome of the native side: what was let go of is deleted and left alone, one codec
lives at most, and none while the renderer does not run, exactly when no `start` fails
after it made its codec. -/
theorem settled_iff (fps : ℕ) (cs : List Call) :
    Along call (fun r c => r.retired <+: (r.call c).retired ∧ (r.call c).Settled) (new fps) cs ↔
      Along call (fun r c => ¬ r.Leaks c) (new fps) cs :=
  along_iff_of_invariant (I := fun r => r.Sound ∧ r.lost = [])
    (fun r c h => by
      rw [settled_call_iff h.1 h.2 c]
      exact and_iff_right (codecMove_call r c).retired)
    (fun r c h hkept => ⟨sound_call h.1 c,
      (sound_call h.1 c).settled_iff_lost.1 ((settled_call_iff h.1 h.2 c).2 hkept)⟩)
    ⟨sound_new fps, rfl⟩ cs

/-- **A frame comes, and `init` fails.**  The codec stays, and so does that of the next frame. -/
theorem not_settled_refused :
    ¬ ∀ fps cs, Along call (fun r c => r.retired <+: (r.call c).retired ∧ (r.call c).Settled)
      (new fps) cs := by
  intro h
  have hsettled := h 20 [.setSurfaceView (some 0), .start false ⟨true, 800, 480, .refused⟩]
  revert hsettled
  decide

end VideoRenderer
end App
end Carlinkit
