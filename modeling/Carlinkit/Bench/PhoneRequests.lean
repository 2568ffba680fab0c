/-
# Who asks for the phone

The dongle does not connect the phone on its own.  `ConnectLoop` of the driver and
`reconnect_loop` of `tools/session.py` both ask for it every ten seconds, as long as no phone is
there, and each has its own idea of when that is: the driver goes by PLUGGED and UNPLUGGED, the
script also by the commands that report the Bluetooth or the WiFi link gone.

`asks_iff` says of both, in terms of what has happened so far, whether they ask at the next turn.
They differ after such a command, where the script asks and the app takes the phone to be still
there; and after a write that failed, which the script does not survive.  Both read the same
messages here, from the start of a session up to a reset of the dongle.
-/

import Carlinkit.Driver.Uncaught
import Carlinkit.Machine.Since
import Mathlib.Data.List.Induction

namespace Carlinkit
namespace Bench
namespace PhoneRequests

open Framing Machine Protocol Driver

/-- What happens in a session. -/
inductive Event
  | message (m : Message)
  /-- The two loops take a turn; `queued` is the result of `requestPhoneConnection`, and
  `written` says that the write of the script raises no `USBError`. -/
  | turn (queued written : Bool)

/-- The read thread of the driver and the counters of `ConnectLoop`. -/
structure App where
  reader : Reader
  connectRequests : ℕ
  connectRequestsFailed : ℕ
deriving DecidableEq, Repr

namespace App

/-- After `start`. -/
def new : App := ⟨Reader.init, 0, 0⟩

/-- `ReadLoop.dispatch`, or a turn of `ConnectLoop`. -/
def step (a : App) : Event → App
  | .message m =>
      { a with
        reader :=
          (dispatch a.reader m.header (if m.payload = [] then none else some m.payload)).1 }
  | .turn queued _ =>
      if a.reader.phoneConnected then { a with connectRequests := 0, connectRequestsFailed := 0 }
      else if queued then { a with connectRequests := a.connectRequests + 1 }
      else { a with connectRequestsFailed := a.connectRequestsFailed + 1 }

/-- A turn sends a request now. -/
def Asks (a : App) : Prop := a.reader.phoneConnected = false

/-- **A turn is what `ConnectLoop` does in three or four actions**, from one sleep to the
next. -/
theorem turn_eq (a : App) (queued written : Bool) :
    run (fun (c : Loops.Connecting) q => c.step true a.reader.phoneConnected q)
        ⟨.inLoop .sleep, a.connectRequests, a.connectRequestsFailed⟩
        (List.replicate (if a.reader.phoneConnected then 3 else 4) queued) =
      ⟨.inLoop .sleep, (a.step (.turn queued written)).connectRequests,
        (a.step (.turn queued written)).connectRequestsFailed⟩ := by
  cases hphone : a.reader.phoneConnected <;> cases queued <;>
    simp [App.step, hphone, Loops.Connecting.step, Loops.Connecting.body, List.replicate]

end App

/-- `PHONE`. -/
def phones : ℤ → Option String
  | 1 => some "AndroidMirror"
  | 3 => some "CarPlay"
  | 4 => some "iPhoneMirror"
  | 5 => some "AndroidAuto"
  | 6 => some "HiCar"
  | _ => none

/-- What `main` and `reconnect_loop` share. -/
structure Script where
  /-- `state["phone"]` -/
  phone : Option String
  /-- `reconnect_loop` has not returned. -/
  asking : Bool
deriving DecidableEq, Repr

namespace Script

/-- The beginning. -/
def new : Script := ⟨none, true⟩

/-- What `main` does with a message, or a turn of `reconnect_loop`. -/
def step (s : Script) : Event → Script
  | .message m =>
      if m.type.toNat = 0x08 ∧ 4 ≤ m.payload.length then
        if (wordAt m.payload 0).toNat = 1008 ∨ (wordAt m.payload 0).toNat = 1010 then
          { s with phone := none }
        else s
      else if m.type.toNat = 0x02 then
        let v : ℤ := if 4 ≤ m.payload.length then (wordAt m.payload 0).toNat else -1
        { s with phone := some ((phones v).getD (toString v)) }
      else if m.type.toNat = 0x04 then { s with phone := none }
      else s
  | .turn _ written =>
      if s.asking = true ∧ s.phone = none then { s with asking := written } else s

/-- A turn sends a request now. -/
def Asks (s : Script) : Prop := s.asking = true ∧ s.phone = none

end Script

/-! ### What has happened -/

namespace Event

/-- A PLUGGED message. -/
def Plugs : Event → Prop
  | .message m => m.type = MessageType.plugged
  | .turn _ _ => False

/-- An UNPLUGGED message. -/
def Unplugs : Event → Prop
  | .message m => m.type = MessageType.unplugged
  | .turn _ _ => False

/-- A command which reports that the Bluetooth or the WiFi link is gone. -/
def Drops : Event → Prop
  | .message m =>
      m.type = MessageType.command ∧ 4 ≤ m.payload.length ∧
        ((wordAt m.payload 0).toNat = 1008 ∨ (wordAt m.payload 0).toNat = 1010)
  | .turn _ _ => False

/-- A turn of the loops. -/
def Turns : Event → Prop
  | .message _ => False
  | .turn _ _ => True

/-- A turn in which a write of the script would fail. -/
def Breaks : Event → Prop
  | .message _ => False
  | .turn _ written => written = false

/-- A turn whose request goes into the queue, or does not. -/
def Queues (result : Bool) : Event → Bool
  | .message _ => false
  | .turn queued _ => queued == result

end Event

/-- A phone was plugged, and not unplugged since. -/
def Linked (es : List Event) : Prop := Since (fun _ e => e.Plugs) (fun e => ¬ e.Unplugs) es

/-- The link of a plugged phone was reported gone, and the phone was neither plugged nor unplugged
since. -/
def Lapsed (es : List Event) : Prop :=
  Since (fun before e => e.Drops ∧ Linked before) (fun e => ¬ e.Plugs ∧ ¬ e.Unplugs) es

/-- A write of the script has failed. -/
def Failed (es : List Event) : Prop :=
  Since (fun before e => e.Breaks ∧ (¬ Linked before ∨ Lapsed before)) (fun _ => True) es

/-- Among `es`, which come after `before`, is a turn that finds a phone. -/
def Finds (before es : List Event) : Prop :=
  Since (fun first e => e.Turns ∧ Linked (before ++ first)) (fun _ => True) es

/-- `after` is what has come since the last turn that found a phone. -/
def Search (before after : List Event) : Prop :=
  ¬ Finds before after ∧ (before = [] ∨ ∃ first e, before = first ++ [e] ∧ e.Turns ∧ Linked first)

/-! ### One event -/

theorem linked_concat (es : List Event) (e : Event) :
    Linked (es ++ [e]) ↔ e.Plugs ∨ Linked es ∧ ¬ e.Unplugs := since_concat es e

theorem lapsed_concat (es : List Event) (e : Event) :
    Lapsed (es ++ [e]) ↔ e.Drops ∧ Linked es ∨ Lapsed es ∧ ¬ e.Plugs ∧ ¬ e.Unplugs :=
  since_concat es e

theorem failed_concat (es : List Event) (e : Event) :
    Failed (es ++ [e]) ↔ e.Breaks ∧ (¬ Linked es ∨ Lapsed es) ∨ Failed es := by
  rw [Failed, since_concat, and_true]
  rfl

/-- What the driver takes from a message. -/
theorem phoneConnected_dispatch (d : Reader) (m : Message) (payload : Option (List Byte)) :
    (dispatch d m.header payload).1.phoneConnected =
      if m.type = MessageType.plugged then true
      else if m.type = MessageType.unplugged then false
      else d.phoneConnected := by
  rw [dispatch]
  have htype : m.header.type = m.type := rfl
  rw [htype]
  by_cases hvideo : m.type = MessageType.videoData
  · rw [if_pos hvideo, hvideo]
    cases VideoMessage.parse payload m.header.length <;> rfl
  · rw [if_neg hvideo]
    by_cases haudio : m.type = MessageType.audioData
    · rw [if_pos haudio, haudio]
      cases AudioMessage.parse payload m.header.length <;> rfl
    · rw [if_neg haudio]
      split_ifs <;> rfl

/-- A message is of one kind. -/
theorem Event.Plugs.not_unplugs {e : Event} (h : e.Plugs) : ¬ e.Unplugs := by
  cases e with
  | message m =>
      intro hunplugs
      have htypes : MessageType.plugged = MessageType.unplugged := h.symm.trans hunplugs
      exact absurd htypes (by decide)
  | turn => exact h.elim

theorem Event.Drops.not_plugs {e : Event} (h : e.Drops) : ¬ e.Plugs ∧ ¬ e.Unplugs := by
  cases e with
  | message m =>
      constructor
      · intro hplugs
        have htypes : MessageType.command = MessageType.plugged := h.1.symm.trans hplugs
        exact absurd htypes (by decide)
      · intro hunplugs
        have htypes : MessageType.command = MessageType.unplugged := h.1.symm.trans hunplugs
        exact absurd htypes (by decide)
  | turn => exact h.elim

/-- What the script takes from a message. -/
theorem phone_step (s : Script) (m : Message) :
    (s.step (.message m)).phone = none ↔
      (Event.message m).Drops ∨ (Event.message m).Unplugs ∨
        s.phone = none ∧ ¬ (Event.message m).Plugs := by
  have htoNat : ∀ t : BitVec 32, m.type.toNat = t.toNat ↔ m.type = t := fun t => BitVec.toNat_inj
  have hcommand : m.type.toNat = 0x08 ↔ m.type = MessageType.command := htoNat MessageType.command
  have hplugged : m.type.toNat = 0x02 ↔ m.type = MessageType.plugged := htoNat MessageType.plugged
  have hunplugged : m.type.toNat = 0x04 ↔ m.type = MessageType.unplugged :=
    htoNat MessageType.unplugged
  by_cases hdrops : (Event.message m).Drops
  · obtain ⟨hcmd, hlong, hgone⟩ := hdrops
    refine iff_of_true ?_ (.inl ⟨hcmd, hlong, hgone⟩)
    simp only [Script.step, hcommand]
    rw [if_pos ⟨hcmd, hlong⟩, if_pos hgone]
  · by_cases hplugs : (Event.message m).Plugs
    · refine iff_of_false ?_ fun h => ?_
      · have hcmd : ¬ (m.type = MessageType.command ∧ 4 ≤ m.payload.length) := by
          rw [show m.type = MessageType.plugged from hplugs]
          exact fun h => absurd h.1 (by decide)
        simp only [Script.step, hcommand, hplugged]
        rw [if_neg hcmd, if_pos (show m.type = MessageType.plugged from hplugs)]
        exact Option.some_ne_none _
      · rcases h with h | h | h
        · exact hdrops h
        · exact hplugs.not_unplugs h
        · exact h.2 hplugs
    · have hplugs' : ¬ m.type = MessageType.plugged := hplugs
      simp only [Script.step, hcommand, hplugged, hunplugged, hdrops, hplugs', false_or, if_false,
        hplugs, not_false_iff, and_true]
      split_ifs with hcmd hgone hunplugs
      · exact absurd ⟨hcmd.1, hcmd.2, hgone⟩ hdrops
      · refine (or_iff_right fun h => ?_).symm
        have htypes : MessageType.command = MessageType.unplugged := hcmd.1.symm.trans h
        exact absurd htypes (by decide)
      · exact iff_of_true rfl (.inl hunplugs)
      · exact (or_iff_right hunplugs).symm

/-- A link that lapsed has not ended. -/
theorem linked_of_lapsed {es : List Event} (h : Lapsed es) : Linked es := by
  induction es using List.reverseRecOn with
  | nil => exact absurd h since_nil
  | append_singleton es e ih =>
      rw [linked_concat]
      rcases (lapsed_concat es e).1 h with ⟨hdrops, hlinked⟩ | ⟨hlapsed, hkeeps⟩
      · exact .inr ⟨hlinked, hdrops.not_plugs.2⟩
      · exact .inr ⟨ih hlapsed, hkeeps.2⟩

/-- The flags of the two programs are statements about the past. -/
structure Known (es : List Event) (a : App) (s : Script) : Prop where
  app : a.reader.phoneConnected = true ↔ Linked es
  phone : s.phone = none ↔ ¬ Linked es ∨ Lapsed es
  asking : s.asking = true ↔ ¬ Failed es

/-- **One event more.** -/
theorem known_concat {es : List Event} {a : App} {s : Script} (h : Known es a s) (e : Event) :
    Known (es ++ [e]) (a.step e) (s.step e) := by
  have hlapsed : Lapsed es → Linked es := linked_of_lapsed
  cases e with
  | message m =>
      have hplugs := @Event.Plugs.not_unplugs (.message m)
      have hdrops := @Event.Drops.not_plugs (.message m)
      refine ⟨?_, ?_, ?_⟩
      · show (dispatch a.reader m.header _).1.phoneConnected = true ↔ _
        rw [phoneConnected_dispatch, linked_concat, ← h.app]
        split_ifs with hplugged hunplugged
        · exact iff_of_true rfl (.inl hplugged)
        · refine iff_of_false nofun fun hlinked => ?_
          rcases hlinked with hplugs' | hkept
          · exact hplugged hplugs'
          · exact hkept.2 hunplugged
        · exact ⟨fun hconnected => .inr ⟨hconnected, hunplugged⟩,
            fun hlinked => (hlinked.resolve_left hplugged).1⟩
      · rw [phone_step, linked_concat, lapsed_concat, h.phone]
        tauto
      · rw [failed_concat, show (s.step (.message m)).asking = s.asking by
          simp only [Script.step]; split_ifs <;> rfl, h.asking]
        exact not_congr (or_iff_right fun hbreaks => hbreaks.1.elim).symm
  | turn queued written =>
      refine ⟨?_, ?_, ?_⟩
      · rw [linked_concat, show (a.step (.turn queued written)).reader = a.reader by
          simp only [App.step]; split_ifs <;> rfl, h.app]
        exact ⟨fun hlinked => .inr ⟨hlinked, id⟩, fun hlinked => (hlinked.resolve_left id).1⟩
      · rw [linked_concat, lapsed_concat, show (s.step (.turn queued written)).phone = s.phone by
          simp only [Script.step]; split_ifs <;> rfl, h.phone]
        simp only [Event.Plugs, Event.Unplugs, Event.Drops, false_or, false_and, not_false_iff,
          and_true]
      · rw [failed_concat, ← h.phone, not_or, ← h.asking]
        simp only [Script.step, Event.Breaks]
        split_ifs with hasks
        · cases written with
          | true => exact iff_of_true rfl ⟨fun hbreaks => Bool.noConfusion hbreaks.1, hasks.1⟩
          | false => exact iff_of_false nofun fun h => h.1 ⟨rfl, hasks.2⟩
        · exact ⟨fun hasking => ⟨fun hbreaks => hasks ⟨hasking, hbreaks.2⟩, hasking⟩, And.right⟩

/-! ### All events -/

theorem known_run (es : List Event) :
    Known es (run App.step .new es) (run Script.step .new es) := by
  induction es using List.reverseRecOn with
  | nil =>
      exact ⟨iff_of_false nofun since_nil, iff_of_true rfl (.inl since_nil),
        iff_of_true rfl since_nil⟩
  | append_singleton es e ih =>
      simp only [run_append, run_cons, run_nil]
      exact known_concat ih e

/-- **When the next turn asks.**  The app asks when no phone is linked.  The script asks as well
when the link has lapsed, and never after a write that failed; so the two agree where the script
still asks and the link has not lapsed, or it does not ask any more and a phone is linked. -/
theorem asks_iff (es : List Event) :
    ((run App.step .new es).Asks ↔ ¬ Linked es) ∧
      ((run Script.step .new es).Asks ↔ ¬ Failed es ∧ (¬ Linked es ∨ Lapsed es)) ∧
        (((run App.step .new es).Asks ↔ (run Script.step .new es).Asks) ↔
          Failed es ∧ Linked es ∨ ¬ Failed es ∧ ¬ Lapsed es) := by
  have hknown := known_run es
  have happ : (run App.step .new es).Asks ↔ ¬ Linked es := by
    rw [App.Asks, ← Bool.not_eq_true, hknown.app]
  have hscript : (run Script.step .new es).Asks ↔ ¬ Failed es ∧ (¬ Linked es ∨ Lapsed es) := by
    rw [Script.Asks, hknown.asking, hknown.phone]
  have hlapsed : Lapsed es → Linked es := linked_of_lapsed
  refine ⟨happ, hscript, ?_⟩
  rw [happ, hscript]
  tauto

/-- A turn more at which no phone is linked, or no turn. -/
theorem search_concat {before after : List Event} {e : Event} (h : Search before after)
    (he : e.Turns → ¬ Linked (before ++ after)) : Search before (after ++ [e]) := by
  refine ⟨?_, h.2⟩
  rw [Finds, since_concat]
  rintro (hfinds | hfinds)
  · exact he hfinds.1 hfinds.2
  · exact h.1 hfinds.1

/-- **What the counters count**: the requests since the last turn that found a phone, those that
went into the queue and those that did not. -/
theorem requested_run (es : List Event) : ∃ before after, es = before ++ after ∧
    Search before after ∧
      (run App.step .new es).connectRequests = after.countP (Event.Queues true) ∧
        (run App.step .new es).connectRequestsFailed = after.countP (Event.Queues false) := by
  induction es using List.reverseRecOn with
  | nil => exact ⟨[], [], rfl, ⟨since_nil, .inl rfl⟩, rfl, rfl⟩
  | append_singleton es e ih =>
      obtain ⟨before, after, hes, hsearch, hrequests, hfailed⟩ := ih
      simp only [run_append, run_cons, run_nil]
      cases e with
      | message m =>
          refine ⟨before, after ++ [.message m], by rw [hes, List.append_assoc],
            search_concat hsearch nofun, ?_, ?_⟩
          · rw [List.countP_append]
            exact hrequests
          · rw [List.countP_append]
            exact hfailed
      | turn queued written =>
          have hlinked := (known_run es).app
          by_cases hphone : (run App.step .new es).reader.phoneConnected = true
          · refine ⟨es ++ [.turn queued written], [], (List.append_nil _).symm,
              ⟨since_nil,
                .inr ⟨es, .turn queued written, rfl, trivial, hlinked.1 hphone⟩⟩, ?_, ?_⟩
            · rw [App.step, if_pos hphone]
              rfl
            · rw [App.step, if_pos hphone]
              rfl
          · refine ⟨before, after ++ [.turn queued written], by rw [hes, List.append_assoc],
              search_concat hsearch fun _ => ?_, ?_, ?_⟩
            · rw [← hes, ← hlinked]
              exact hphone
            · rw [App.step, if_neg hphone, List.countP_append, ← hrequests]
              cases queued <;> rfl
            · rw [App.step, if_neg hphone, List.countP_append, ← hfailed]
              cases queued <;> rfl

end PhoneRequests
end Bench
end Carlinkit
