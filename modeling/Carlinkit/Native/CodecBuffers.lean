/-
# Where the bytes of a codec go

`Accounts` follows the buffers through `OMXVideoCodec`: what `nativeConsume` got is in the hand
of the caller, in the source, released by `stop`, or with the decoder, in this order, and none
is lost.  With the calls that `OMXVideoCodec.mediaDecode` makes for a codec of the renderer it
is an account of the renderer's buffers (`decoder_gets`).

`Sized` follows the format.  The Java class passes the height where the native side takes the
width, and the parameter sets come when `OMXCodec::Create` has already read the format.
-/

import Carlinkit.Native.CodecProgress

namespace Carlinkit
namespace Native

open Framing Machine App

/-- The bytes of `nativeConsume`. -/
@[simp] def consumed : NativeCall → Option (List Byte)
  | .consume buf len => some (buf.take len)
  | .setSps _ _ => none

namespace VideoCodec

variable {s : VideoCodec} {e : Event}

/-- The buffers at one place of the source; before there is one there are none. -/
def place (s : VideoCodec) (f : OMXSource → List MediaBuffer) : List MediaBuffer :=
  s.omxSource.toList.flatMap f

/-- All buffers of the source. -/
def contents (s : VideoCodec) : List MediaBuffer := s.place (·.handoff.contents)

/-- Every buffer is at one place, and the source has lost none. -/
structure Accounts (s : VideoCodec) : Prop where
  handed : s.handed = s.contents ++ s.inHand
  bytes : s.handed.map MediaBuffer.data = s.calls.filterMap consumed
  sound : ∀ x ∈ s.omxSource, x.handoff.Sound
  lost : ∀ x ∈ s.omxSource, x.lost = []

theorem accounts_new : new.Accounts := ⟨rfl, rfl, by simp [new], by simp [new]⟩

theorem inHand_eq_nil (h : ∀ buffer, s.caller ≠ .made buffer) : s.inHand = [] := by
  unfold inHand
  split
  · exact absurd ‹_› (h _)
  · rfl

/-- What touches neither the buffers nor the calls keeps the account. -/
theorem Accounts.of_eq {t : VideoCodec} (h : s.Accounts) (hsource : t.omxSource = s.omxSource)
    (hhanded : t.handed = s.handed) (hcalls : t.calls = s.calls) (hhand : t.inHand = s.inHand) :
    t.Accounts where
  handed := by rw [hhanded, h.handed, hhand, contents, contents, place, place, hsource]
  bytes := by rw [hhanded, h.bytes, hcalls]
  sound := hsource ▸ h.sound
  lost := hsource ▸ h.lost

theorem Accounts.crash (h : s.Accounts) : s.crash.Accounts := h.of_eq rfl rfl rfl rfl

/-- What a thread does to the source is what the queue does, and nothing is refused. -/
theorem Accounts.call {t : VideoCodec} {x : OMXSource} (h : s.Accounts)
    (hx : s.omxSource = some x) (c : OMXSource.Call) (ht : t.omxSource = some (x.call c))
    (hhanded : t.handed = s.handed) (hcalls : t.calls = s.calls)
    (hhand : s.inHand = c.op.item.toList ++ t.inHand) (hlost : (x.call c).lost = []) :
    t.Accounts := by
  have hsound := h.sound x hx
  refine ⟨?_, by rw [hhanded, h.bytes, hcalls], ?_, ?_⟩
  · have hs : s.contents = x.handoff.contents := by simp [contents, place, hx]
    have ht' : t.contents = (x.handoff.step c.op).contents := by
      simp [contents, place, ht, OMXSource.handoff_call hsound c]
    rw [hhanded, h.handed, hs, ht', Handoff.contents_step hsound, hhand, List.append_assoc]
  · intro y hy
    obtain rfl : x.call c = y := by simpa [ht] using hy
    rw [OMXSource.handoff_call hsound]
    exact hsound.step c.op
  · intro y hy
    obtain rfl : x.call c = y := by simpa [ht] using hy
    exact hlost

theorem Accounts.callerStep (hc : s.Control) (h : s.Accounts) : s.callerStep.Accounts := by
  unfold VideoCodec.callerStep
  cases hcaller : s.caller with
  | made buffer =>
    cases hx : s.omxSource with
    | none => exact h.crash
    | some x =>
      have hquit : x.quitFlag = false := by
        rw [hc.sourceQuit x hx, hc.alive (by simp [hcaller]), hcaller]
        rfl
      exact h.call hx (.queueBuffer buffer) rfl rfl rfl
        (by simp [inHand, hcaller, OMXSource.Call.op, Handoff.Op.item])
        (by simp [OMXSource.call, OMXSource.queueBuffer, hquit, h.lost x hx])
  | stopping =>
    cases hx : s.omxSource with
    | none => exact h.crash
    | some x =>
      refine h.call hx .stop rfl rfl rfl
        (by simp [inHand, hcaller, OMXSource.Call.op, Handoff.Op.item]) ?_
      simp only [OMXSource.call, OMXSource.stop]
      split_ifs <;> exact h.lost x hx
  | initStatus =>
    cases hd : s.omxDecoder with
    | none => exact h.crash
    | some d => exact h.of_eq rfl rfl rfl (by simp [inHand, hcaller])
  | initLock =>
    exact h.of_eq rfl rfl rfl (by simp only [inHand, hcaller]; split_ifs <;> rfl)
  | joining =>
    simp only
    split_ifs
    · exact h.of_eq rfl rfl rfl (by simp [inHand, hcaller])
    · exact h
  | deleting =>
    simp only
    split_ifs
    · exact h.of_eq rfl rfl rfl (by simp [inHand, hcaller])
    · exact h.crash
  | quitting => exact h.of_eq rfl rfl rfl (by simp [inHand, hcaller])
  | idle | initWaiting => exact h

theorem Accounts.decoderStep (hc : s.Control) (h : s.Accounts) (o : Opening) (pulls : Bool) :
    (s.decoderStep o pulls).Accounts := by
  unfold VideoCodec.decoderStep
  cases hdecoder : s.decoder with
  | makeSource =>
    have hx : s.omxSource = none := by
      simpa [hdecoder, DecoderPc.hasSource] using hc.source
    have hhanded : s.handed = s.inHand := by simpa [contents, place, hx] using h.handed
    exact ⟨by simpa [contents, place, OMXSource.new, OMXSource.handoff, Handoff.contents, inHand]
        using hhanded, h.bytes,
      by simpa using OMXSource.sound_new _ _ _, by simp [OMXSource.new]⟩
  | initDecoder =>
    cases hx : s.omxSource with
    | none => exact h.crash
    | some x =>
      cases hd : s.omxDecoder with
      | none => exact h.crash
      | some d =>
        simp only
        split_ifs <;> exact h.of_eq hx.symm rfl rfl rfl
  | notify =>
    refine h.of_eq rfl rfl rfl ?_
    simp only [inHand]
    split_ifs with hwaiting
    · rw [hwaiting]
    · rfl
  | read | stop =>
    simp only
    split
    · exact h.of_eq rfl rfl rfl rfl
    · exact h.crash
  | pulling =>
    cases hx : s.omxSource with
    | none => exact h.crash
    | some x =>
      simp only
      split
      · exact h
      · exact h.of_eq hx.symm rfl rfl rfl
      · rename_i buffer x' hnext
        have hx' : x' = x.call .nextBuffer := by rw [OMXSource.call, hnext]
        refine h.call hx .nextBuffer (congrArg some hx') rfl rfl rfl ?_
        simp only [OMXSource.call, OMXSource.nextBuffer]
        split_ifs
        · split <;> exact h.lost x hx
        · exact h.lost x hx
  | _ => exact h.of_eq rfl rfl rfl rfl

/-- A call of the Java class keeps the account when its body does. -/
theorem Accounts.enter (h : s.Accounts) {f : VideoCodec → VideoCodec}
    (hf : s.caller = .idle → s.deleted = false → (f s).Accounts) : (s.enter f).Accounts := by
  unfold VideoCodec.enter
  split_ifs with hdeleted hidle
  · exact h.crash
  · exact hf hidle (by simpa using hdeleted)
  · exact h

theorem Accounts.step (hc : s.Control) (h : s.Accounts) (he : s.Uses e) :
    (s.step e).Accounts := by
  unfold VideoCodec.step
  by_cases hcrashed : s.crashed = true
  · rwa [if_pos hcrashed]
  rw [if_neg hcrashed]
  cases e with
  | setSurface width height => exact h.enter fun _ _ => h.of_eq rfl rfl rfl rfl
  | init fps =>
    refine h.enter fun hidle _ => ?_
    simp only [init, if_pos he.1]
    exact h.of_eq rfl rfl rfl (by simp [inHand, hidle])
  | setSps buf len =>
    refine h.enter fun hidle _ => ?_
    unfold VideoCodec.setSps
    cases hx : s.omxSource with
    | none => exact h.crash
    | some x =>
      have hhanded := h.handed
      have hcontents : s.contents = x.handoff.contents := by simp [contents, place, hx]
      refine ⟨?_, by simpa [List.filterMap_cons] using h.bytes, by simpa using h.sound x hx,
        by simpa [OMXSource.setAvcc] using h.lost x hx⟩
      simpa [contents, place, inHand, hx] using hhanded
  | consume buf len t =>
    refine h.enter fun hidle halive => ?_
    have hquit : s.decoderThreadQuitFlag = false := by
      rw [hc.quit, hidle, halive]
      rfl
    have hhand : s.inHand = [] := inHand_eq_nil (by simp [hidle])
    simp only [queueBuffer, hquit]
    refine ⟨?_, by simp [h.bytes], h.sound, h.lost⟩
    have hhanded := h.handed
    rw [hhand] at hhanded
    simpa [contents, place, inHand] using hhanded
  | delete =>
    refine h.enter fun hidle _ => h.of_eq rfl rfl rfl ?_
    simp only [shutdown, inHand, hidle]
    split_ifs <;> rfl
  | caller => exact h.callerStep hc
  | decoder o pulls => exact h.decoderStep hc o pulls
  | spurious =>
    simp only
    split_ifs with hwaiting
    · exact h.of_eq rfl rfl rfl (by simp [inHand, hwaiting])
    · exact h

theorem accounts_run {es : List Event} (hes : Along step Uses new es) :
    (run step new es).Accounts :=
  (hes.invariant (I := fun s => s.Control ∧ s.Accounts)
    (fun _ _ h he => ⟨h.1.step he, h.2.step h.1 he⟩) ⟨control_new, accounts_new⟩).2

/-- A buffer of the renderer that `mediaDecode` can look into. -/
def Long (b : Buffer) : Bool := decide (5 ≤ b.bytes.length)

theorem consumed_calls (b : Buffer) :
    b.calls.filterMap consumed = if Long b then [b.bytes] else [] := by
  unfold Buffer.calls mediaDecode isSps Long
  rcases Nat.lt_or_ge 4 b.bytes.length with hlong | hshort
  · rw [List.getElem?_eq_getElem hlong]
    have hfive : 5 ≤ b.bytes.length := hlong
    simp only [Option.map_some, Option.getD_some, List.filterMap_append, hfive, decide_true]
    split_ifs <;> simp
  · have hfive : ¬ 5 ≤ b.bytes.length := by omega
    simp [hshort, hfive]

theorem consumed_codec (c : Codec) :
    c.calls.filterMap consumed = (c.handed.filter Long).map Buffer.bytes := by
  unfold Codec.calls
  induction c.handed with
  | nil => rfl
  | cons b handed ih =>
    rw [List.flatMap_cons, List.filterMap_append, ih, consumed_calls, List.filter_cons]
    split_ifs <;> simp

/-- **The decoder gets what the renderer hands over, in order and nothing else.**  Of the
buffers of a codec that have five bytes, the first are with the decoder, then come those that
`stop` released, those in the source, and the one in the hand of the caller; none is lost, and
`shutdown` leaves none in the source. -/
theorem decoder_gets {c : Codec} {es : List Event} (hes : Along step Uses new es)
    (hcalls : (run step new es).calls = c.calls) :
    let s := run step new es
    (c.handed.filter Long).map Buffer.bytes =
        (s.place (·.delivered) ++ s.place (·.released) ++ s.place (·.pbuffers) ++ s.inHand).map
          MediaBuffer.data ∧
      s.place (·.lost) = [] ∧ (s.deleted = true → s.place (·.pbuffers) = [] ∧ s.inHand = []) := by
  intro s
  have hcontrol : s.Control := control_run hes
  have haccounts : s.Accounts := accounts_run hes
  refine ⟨?_, ?_, fun hdeleted => ?_⟩
  · rw [← consumed_codec, ← hcalls, ← haccounts.bytes, haccounts.handed]
    congr 2
    cases hx : s.omxSource with
    | none => simp [contents, place, hx]
    | some x => simp [contents, place, hx, Handoff.contents, OMXSource.handoff, haccounts.lost x hx]
  · cases hx : s.omxSource with
    | none => simp [place, hx]
    | some x => simp [place, hx, haccounts.lost x hx]
  · have hidle := (hcontrol.deleted hdeleted).1
    refine ⟨?_, inHand_eq_nil (by simp [hidle])⟩
    cases hx : s.omxSource with
    | none => simp [place, hx]
    | some x =>
      have hquit : x.quitFlag = true := by simp [hcontrol.sourceQuit x hx, hdeleted]
      have hempty : x.pbuffers = [] := (haccounts.sound x hx).queue hquit
      simp [place, hx, hempty]

/-- Six bytes of a picture. -/
def picture : Frame where
  msg := ⟨800, 480, 0, 0, 6⟩
  payload := [0, 0, 0, 1, 0x41, 0x9A]
  inside := Nat.le_refl 6

/-- A renderer's codec that got an SPS, two pictures and a buffer that is too short. -/
def renderer : Codec where
  fps := 30
  surface := 0
  width := 800
  height := 480
  cached := false
  handed := [.parameterSets [0, 0, 0, 1, 7], .frame picture, .frame picture,
    .parameterSets [0, 0, 1]]
  deleted := true

/-- The decoder reads the SPS, and `shutdown` comes before it reads the pictures. -/
def streaming : List Event :=
  [.setSurface 800 480, .init 30] ++ coming ++
    [.caller, .caller, .decoder ⟨0, true, 0⟩ true, .setSps [0, 0, 0, 1, 7] 5,
      .consume [0, 0, 0, 1, 7] 5 0, .caller] ++ List.replicate 3 (.decoder ⟨0, true, 0⟩ true) ++
    [.consume picture.payload 6 0, .caller, .consume picture.payload 6 0, .caller, .delete,
      .caller, .caller] ++ List.replicate 5 (.decoder ⟨0, true, 0⟩ false) ++ [.caller, .caller]

theorem decoder_gets_streaming :
    let s := run step new streaming
    ((renderer.handed.filter Long).map Buffer.bytes =
        (s.place (·.delivered) ++ s.place (·.released) ++ s.place (·.pbuffers) ++ s.inHand).map
          MediaBuffer.data ∧
      s.place (·.lost) = [] ∧ (s.deleted = true → s.place (·.pbuffers) = [] ∧ s.inHand = [])) ∧
    s.deleted = true ∧ (s.place (·.delivered)).length = 1 ∧ (s.place (·.released)).length = 2 :=
  ⟨decoder_gets (c := renderer) (by decide +kernel) (by decide +kernel), by decide +kernel⟩

/-! ### The format that `Create` gets -/

/-- The format that `Create` gets: the size the other way round, and no parameter sets. -/
def opening (s : VideoCodec) : Format := .new s.surface.2 s.surface.1 s.fps

/-- The two sides have the size the other way round, and up to `Create` nobody has touched the
format of the source. -/
structure Sized (s : VideoCodec) : Prop where
  size : s.width = s.surface.2 ∧ s.height = s.surface.1
  format : s.decoder.opened = false → ∀ x ∈ s.omxSource, x.format = s.opening
  created : ∀ d ∈ s.omxDecoder, ∀ f ∈ d.created, f = s.opening
  fresh : s.decoder = .absent → s.omxSource = none ∧ s.omxDecoder = none

theorem sized_new : new.Sized := ⟨⟨rfl, rfl⟩, by simp [new], by simp [new], fun _ => ⟨rfl, rfl⟩⟩

/-- What the caller does in a function leaves the format and the size. -/
theorem Sized.callerStep (h : s.Sized) : s.callerStep.Sized := by
  have hsize := h.size
  have hformat := h.format
  have hcreated := h.created
  have hfresh := h.fresh
  unfold VideoCodec.callerStep
  cases hcaller : s.caller with
  | made buffer => constructor <;> grind -linarith [crash, opening, OMXSource.queueBuffer]
  | stopping => constructor <;> grind -linarith [crash, opening, OMXSource.stop]
  | _ => constructor <;> grind -linarith [crash, opening]

theorem Sized.decoderStep (h : s.Sized) (o : Opening) (pulls : Bool) :
    (s.decoderStep o pulls).Sized := by
  have hsize := h.size
  have hformat := h.format
  have hcreated := h.created
  have hfresh := h.fresh
  unfold VideoCodec.decoderStep
  cases hdecoder : s.decoder with
  | makeSource => constructor <;> grind -linarith [opening, OMXSource.new]
  | makeDecoder => constructor <;> grind -linarith [opening, OMXDecoder.new]
  | initDecoder => constructor <;> grind -linarith [crash, opening, OMXDecoder.init]
  | pulling => constructor <;> grind -linarith [crash, opening, OMXSource.nextBuffer]
  | _ => constructor <;> grind -linarith [crash, opening]

theorem Sized.step (hc : s.Control) (h : s.Sized) (he : s.Uses e) : (s.step e).Sized := by
  have hsize := h.size
  have hformat := h.format
  have hcreated := h.created
  have hfresh := h.fresh
  unfold VideoCodec.step
  by_cases hcrashed : s.crashed = true
  · rwa [if_pos hcrashed]
  rw [if_neg hcrashed]
  cases e with
  | setSurface width height =>
    have hf := hfresh he.1
    constructor <;>
      grind -linarith [enter, crash, setSurface, nativeSurfaceInit, setNativeWindow, opening]
  | init fps =>
    have hf := hfresh he.1
    constructor <;> grind -linarith [enter, crash, init, opening]
  | setSps buf len =>
    have hannounced := (hc.result (by simp [he.1])).1
    constructor <;> grind -linarith [enter, crash, setSps, opening]
  | consume buf len t =>
    constructor <;> grind -linarith [enter, crash, queueBuffer, opening]
  | delete => constructor <;> grind -linarith [enter, crash, shutdown, opening]
  | caller => exact h.callerStep
  | decoder o pulls => exact h.decoderStep o pulls
  | spurious => constructor <;> grind -linarith [opening]

/-- **`Create` gets the size the other way round and never the parameter sets.**  The width of
its format is the height of the Surface, and `setSps` always comes too late. -/
theorem created_format {es : List Event} (hes : Along step Uses new es) :
    let s := run step new es
    ∀ d ∈ s.omxDecoder, ∀ f ∈ d.created,
      (f.width, f.height) = s.surface.swap ∧ f.frameRate = s.fps ∧ f.avcc = none := by
  intro s d hd f hf
  have hsized : s.Sized := (hes.invariant (I := fun s => s.Control ∧ s.Sized)
    (fun _ _ h he => ⟨h.1.step he, h.2.step h.1 he⟩) ⟨control_new, sized_new⟩).2
  rw [hsized.created d hd f hf]
  exact ⟨rfl, rfl, rfl⟩

theorem created_format_closing :
    let s := run step new closing
    ∀ d ∈ s.omxDecoder, ∀ f ∈ d.created,
      (f.width, f.height) = s.surface.swap ∧ f.frameRate = s.fps ∧ f.avcc = none :=
  created_format (by decide)

end VideoCodec
end Native
end Carlinkit
