/-
# The mode manager of the head unit

`HondaConnectManager` asks the `ModeMgr` of the head unit for the audio (`requestAudioFocus`, at
every resume), gives it back (`releaseAudioFocus`), and confirms what the head unit decides by
itself (`rcvOnInsCmd`, `rcvOffInsCmd`).  It also registers a callback for the keys of the wheel,
at every `initAudioBinding`: "the first version of this code made the callback be discarded and
re-registered" each time.  Here are all calls into the `ModeMgr`, in their order; they may
throw, and only the answer to the registration of the keys is looked at.

`asked_run` is the protocol: requests and returns of the audio alternate, and the keys are
registered again only after they were refused or unregistered.  `granted_iff` is the hole in
it: when the head unit takes the mode away the app confirms, but goes on believing that it has
the audio, and no resume asks until the app has given it back.

The wheel itself is in `Carlinkit.Manager.SteeringMenu`.  The callbacks that only log are left
out.
-/

import Carlinkit.Machine.Run
import Mathlib.Data.List.Chain

namespace Carlinkit
namespace Manager
namespace ModeMgr

open Machine

/-! ### `ModeMgrMode` -/

/-- `REQUEST_MODE`. -/
def requestMode : ℕ := 31

/-- `CONFIRM_MODE`. -/
def confirmMode : ℕ := 7

/-- `NOTIFY_MODE`. -/
def notifyMode : ℕ := 3

/-- What the manager finds when it is made, and the index from the settings. -/
structure Config where
  /-- Whether there is an entry in the whitelist. -/
  pControl_ : Bool
  /-- Whether there is a `modeMgrManager_`. -/
  modeMgrManager_ : Bool
  modeMgrAudioIdx : ℤ
deriving DecidableEq, Repr

/-- A call into the `ModeMgr`, with the index left out. -/
inductive Call
  | sendModeMgrOnReq (mode : ℕ)
  | sendModeMgrOffReq (mode : ℕ)
  | sendModeMgrOnCnf (mode : ℕ)
  | sendModeMgrOffCnf (mode : ℕ)
  | notifyModeMgrStatus (state : ℕ)
  | setImidConnectStatus (status : ℕ)
  | registerModeMgrCallback (callback : ℕ)
  | unregisterModeMgrCallback
  /-- With its answer, if it returns. -/
  | registerModeMgrSWKeyEventCallback (callback : ℕ) (ret : Option ℤ)
  | unregisterModeMgrSWKeyEventCallback
deriving DecidableEq, Repr

/-- The manager, and its calls so far. -/
structure State where
  hasAudioFocus_ : Bool
  modeMgrServiceCallBack_ : Option ℕ
  modeMgrServiceSWKeyEventCallBack_ : Option ℕ
  /-- How many callbacks were made. -/
  callbacks : ℕ
  calls : List Call
deriving DecidableEq, Repr

/-- The manager after its constructor. -/
def start : State := ⟨false, none, none, 0, []⟩

inductive Event
  | requestAudioFocus
  | releaseAudioFocus
  /-- With the answer to the registration of the keys. -/
  | initAudioBinding (ret : Option ℤ)
  | endAudioBinding
  | rcvOnInsCmd
  | rcvOffInsCmd
  /-- `onServiceDisconnected` of the wheel or of EcNc. -/
  | onServiceDisconnected
deriving DecidableEq, Repr

variable (c : Config)

def State.call (cs : List Call) (s : State) : State := { s with calls := s.calls ++ cs }

/-- `requestAudioFocus`, the part about the `ModeMgr`. -/
def requestAudioFocus (s : State) : State :=
  if c.pControl_ = false ∨ c.modeMgrManager_ = false then s
  else if s.hasAudioFocus_ = false then
    { s.call [.sendModeMgrOnReq requestMode, .setImidConnectStatus 1] with
      hasAudioFocus_ := true }
  else s

/-- `releaseAudioFocus`, the part about the `ModeMgr`. -/
def releaseAudioFocus (s : State) : State :=
  if c.pControl_ = false ∨ c.modeMgrManager_ = false then s
  else if s.hasAudioFocus_ = true then
    { s.call [.setImidConnectStatus 0, .sendModeMgrOffReq requestMode, .notifyModeMgrStatus 0] with
      hasAudioFocus_ := false }
  else s

/-- The answer of a registration that worked: the framework "echoes the index back". -/
def accepted (ret : Option ℤ) : Prop := ∃ r ∈ ret, r = c.modeMgrAudioIdx ∨ r = 0

instance (ret : Option ℤ) : Decidable (accepted c ret) :=
  inferInstanceAs (Decidable (∃ r ∈ ret, _))

/-- `registerModeMgrSWKeyCallback`. -/
def registerModeMgrSWKeyCallback (ret : Option ℤ) (s : State) : State :=
  match s.modeMgrServiceSWKeyEventCallBack_ with
  | some _ => s
  | none =>
      { s.call [.registerModeMgrSWKeyEventCallback s.callbacks ret] with
        callbacks := s.callbacks + 1
        modeMgrServiceSWKeyEventCallBack_ := if accepted c ret then some s.callbacks else none }

/-- `registerModeMgrCallback`. -/
def registerModeMgrCallback (ret : Option ℤ) (s : State) : State :=
  if c.modeMgrManager_ = true then
    registerModeMgrSWKeyCallback c ret
      { s.call [.registerModeMgrCallback s.callbacks] with
        callbacks := s.callbacks + 1
        modeMgrServiceCallBack_ := some s.callbacks }
  else s

/-- `unregisterModeMgrCallback`. -/
def unregisterModeMgrCallback (s : State) : State :=
  if c.modeMgrManager_ = false then s
  else
    let s := s.call [.unregisterModeMgrCallback]
    match s.modeMgrServiceSWKeyEventCallBack_ with
    | some _ =>
        { s.call [.unregisterModeMgrSWKeyEventCallback] with
          modeMgrServiceSWKeyEventCallBack_ := none, modeMgrServiceCallBack_ := none }
    | none => { s with modeMgrServiceCallBack_ := none }

/-- One event. -/
def step (s : State) : Event → State
  | .requestAudioFocus => requestAudioFocus c s
  | .releaseAudioFocus => releaseAudioFocus c s
  | .initAudioBinding ret => if c.pControl_ = false then s else registerModeMgrCallback c ret s
  | .endAudioBinding => unregisterModeMgrCallback c (releaseAudioFocus c s)
  | .rcvOnInsCmd => s.call [.sendModeMgrOnCnf confirmMode, .notifyModeMgrStatus notifyMode]
  | .rcvOffInsCmd => s.call [.sendModeMgrOffCnf confirmMode]
  | .onServiceDisconnected =>
      if c.modeMgrManager_ = true then s.call [.setImidConnectStatus 0] else s

/-! ### What the `ModeMgr` is asked -/

/-- Asking for the audio, and giving it back. -/
def Call.request : Call → Option Bool
  | .sendModeMgrOnReq _ => some true
  | .sendModeMgrOffReq _ => some false
  | _ => none

/-- What becomes of the keys of the wheel. -/
inductive Keys
  | registered
  | refused
  | unregistered
deriving DecidableEq, Repr

/-- The keys of the wheel. -/
def Call.keys : Call → Option Keys
  | .registerModeMgrSWKeyEventCallback _ ret =>
      some (if accepted c ret then .registered else .refused)
  | .unregisterModeMgrSWKeyEventCallback => some .unregistered
  | _ => none

/-- Who has the audio, by the last request or confirmation. -/
def Call.mode : Call → Option Bool
  | .sendModeMgrOnReq _ | .sendModeMgrOnCnf _ => some true
  | .sendModeMgrOffReq _ | .sendModeMgrOffCnf _ => some false
  | _ => none

def State.requests (s : State) : List Bool := s.calls.filterMap Call.request

def State.keys (s : State) : List Keys := s.calls.filterMap (Call.keys c)

def State.granted (s : State) : Bool := (s.calls.filterMap Call.mode).getLast?.getD false

/-- Requests and returns alternate, and a request comes first. -/
structure Alternates (s : State) : Prop where
  requests : (false :: s.requests).IsChain (· ≠ ·)
  focus : (false :: s.requests).getLast? = some s.hasAudioFocus_

/-- The keys are unregistered exactly when they were registered last. -/
structure Keyed (s : State) : Prop where
  keys : (Keys.refused :: s.keys c).IsChain fun a b => b = .unregistered ↔ a = .registered
  callback : (Keys.refused :: s.keys c).getLast? = some .registered ↔
    s.modeMgrServiceSWKeyEventCallBack_ ≠ none

variable {c} {s s' : State}

/-- One more at the end of a chain. -/
theorem isChain_snoc {α : Type*} {R : α → α → Prop} {a b : α} {l : List α}
    (h : (a :: l).IsChain R) (hb : ∀ x, (a :: l).getLast? = some x → R x b) :
    (a :: (l ++ [b])).IsChain R := by
  rw [← List.cons_append]
  refine h.append (.singleton b) fun x hx y hy => ?_
  obtain rfl := Option.some.inj hy
  exact hb x hx

theorem getLast_snoc {α : Type*} (a b : α) (l : List α) :
    (a :: (l ++ [b])).getLast? = some b := by
  rw [← List.cons_append, List.getLast?_concat]

theorem Alternates.same (h : Alternates s) (hr : s'.requests = s.requests)
    (hf : s'.hasAudioFocus_ = s.hasAudioFocus_) : Alternates s' := by
  constructor
  · rw [hr]
    exact h.requests
  · rw [hr, hf]
    exact h.focus

/-- The request that is due. -/
theorem Alternates.next (h : Alternates s) (hr : s'.requests = s.requests ++ [s'.hasAudioFocus_])
    (hf : s.hasAudioFocus_ ≠ s'.hasAudioFocus_) : Alternates s' := by
  constructor
  · rw [hr]
    refine isChain_snoc h.requests fun x hx => ?_
    obtain rfl := Option.some.inj (hx.symm.trans h.focus)
    exact hf
  · rw [hr]
    exact getLast_snoc ..

theorem Keyed.same (h : Keyed c s) (hk : s'.keys c = s.keys c)
    (hc : s'.modeMgrServiceSWKeyEventCallBack_ = s.modeMgrServiceSWKeyEventCallBack_) :
    Keyed c s' := by
  constructor
  · rw [hk]
    exact h.keys
  · rw [hk, hc]
    exact h.callback

theorem Keyed.next (h : Keyed c s) {k : Keys} (hk : s'.keys c = s.keys c ++ [k])
    (hcallback : k = .unregistered ↔ s.modeMgrServiceSWKeyEventCallBack_ ≠ none)
    (hafter : k = .registered ↔ s'.modeMgrServiceSWKeyEventCallBack_ ≠ none) : Keyed c s' := by
  constructor
  · rw [hk]
    refine isChain_snoc h.keys fun x hx => ?_
    rw [hcallback, ← h.callback, hx, Option.some_inj]
  · rw [hk, getLast_snoc, Option.some_inj]
    exact hafter

theorem requests_call (cs : List Call) (s : State) :
    (s.call cs).requests = s.requests ++ cs.filterMap Call.request := List.filterMap_append ..

theorem keys_call (cs : List Call) (s : State) :
    (s.call cs).keys c = s.keys c ++ cs.filterMap (Call.keys c) := List.filterMap_append ..

/-! ### The requests -/

theorem Alternates.request (h : Alternates s) : Alternates (requestAudioFocus c s) := by
  unfold requestAudioFocus
  split_ifs with hmissing hfocus
  · exact h
  · refine h.next (requests_call ..) ?_
    rw [hfocus]
    exact Bool.false_ne_true
  · exact h

theorem Alternates.release (h : Alternates s) : Alternates (releaseAudioFocus c s) := by
  unfold releaseAudioFocus
  split_ifs with hmissing hfocus
  · exact h
  · refine h.next (requests_call ..) ?_
    rw [hfocus]
    exact Bool.false_ne_true.symm
  · exact h

/-- What is no request leaves the requests alone. -/
theorem Alternates.call (h : Alternates s) {cs : List Call}
    (hcs : cs.filterMap Call.request = []) : Alternates (s.call cs) :=
  h.same (by rw [requests_call, hcs, List.append_nil]) rfl

theorem Alternates.registerKeys (h : Alternates s) (ret : Option ℤ) :
    Alternates (registerModeMgrSWKeyCallback c ret s) := by
  unfold registerModeMgrSWKeyCallback
  split
  · exact h
  · exact h.same ((requests_call ..).trans (List.append_nil _)) rfl

theorem Alternates.register (h : Alternates s) (ret : Option ℤ) :
    Alternates (registerModeMgrCallback c ret s) := by
  unfold registerModeMgrCallback
  split_ifs
  · apply Alternates.registerKeys
    exact h.same ((requests_call ..).trans (List.append_nil _)) rfl
  · exact h

theorem Alternates.unregister (h : Alternates s) : Alternates (unregisterModeMgrCallback c s) := by
  unfold unregisterModeMgrCallback
  split_ifs
  · exact h
  · have hcall : Alternates (s.call [.unregisterModeMgrCallback]) := h.call rfl
    dsimp only
    split
    · exact hcall.same ((requests_call ..).trans (List.append_nil _)) rfl
    · exact hcall.same rfl rfl

theorem Alternates.step (h : Alternates s) (e : Event) : Alternates (step c s e) := by
  cases e with
  | requestAudioFocus => exact h.request
  | releaseAudioFocus => exact h.release
  | initAudioBinding ret =>
      simp only [ModeMgr.step]
      split_ifs
      · exact h
      · exact h.register ret
  | endAudioBinding => exact h.release.unregister
  | rcvOnInsCmd => exact h.call rfl
  | rcvOffInsCmd => exact h.call rfl
  | onServiceDisconnected =>
      simp only [ModeMgr.step]
      split_ifs
      · exact h.call rfl
      · exact h

/-! ### The keys -/

/-- What is not about the keys leaves them alone. -/
theorem Keyed.call (h : Keyed c s) {cs : List Call} (hcs : cs.filterMap (Call.keys c) = []) :
    Keyed c (s.call cs) :=
  h.same (by rw [keys_call, hcs, List.append_nil]) rfl

theorem Keyed.request (h : Keyed c s) : Keyed c (requestAudioFocus c s) := by
  unfold requestAudioFocus
  split_ifs
  · exact h
  · exact h.same ((keys_call ..).trans (List.append_nil _)) rfl
  · exact h

theorem Keyed.release (h : Keyed c s) : Keyed c (releaseAudioFocus c s) := by
  unfold releaseAudioFocus
  split_ifs
  · exact h
  · exact h.same ((keys_call ..).trans (List.append_nil _)) rfl
  · exact h

theorem Keyed.registerKeys (h : Keyed c s) (ret : Option ℤ) :
    Keyed c (registerModeMgrSWKeyCallback c ret s) := by
  unfold registerModeMgrSWKeyCallback
  cases hcallback : s.modeMgrServiceSWKeyEventCallBack_ with
  | some callback => exact h
  | none =>
      refine h.next (keys_call ..) ?_ ?_
      · rw [hcallback]
        split_ifs <;> simp
      · dsimp only
        split_ifs <;> simp

theorem Keyed.register (h : Keyed c s) (ret : Option ℤ) :
    Keyed c (registerModeMgrCallback c ret s) := by
  unfold registerModeMgrCallback
  split_ifs
  · apply Keyed.registerKeys
    exact h.same ((keys_call ..).trans (List.append_nil _)) rfl
  · exact h

theorem Keyed.unregister (h : Keyed c s) : Keyed c (unregisterModeMgrCallback c s) := by
  unfold unregisterModeMgrCallback
  split_ifs
  · exact h
  · have hcall : Keyed c (s.call [.unregisterModeMgrCallback]) := h.call rfl
    dsimp only
    split
    next callback hcallback =>
      refine hcall.next (keys_call ..) ?_ ?_
      · rw [hcallback]
        simp
      · simp
    next => exact hcall.same rfl rfl

theorem Keyed.step (h : Keyed c s) (e : Event) : Keyed c (step c s e) := by
  cases e with
  | requestAudioFocus => exact h.request
  | releaseAudioFocus => exact h.release
  | initAudioBinding ret =>
      simp only [ModeMgr.step]
      split_ifs
      · exact h
      · exact h.register ret
  | endAudioBinding => exact h.release.unregister
  | rcvOnInsCmd => exact h.call rfl
  | rcvOffInsCmd => exact h.call rfl
  | onServiceDisconnected =>
      simp only [ModeMgr.step]
      split_ifs
      · exact h.call rfl
      · exact h

/-- **The calls into the `ModeMgr` are in order.**  Requests and returns of the audio alternate,
and the last one is what `hasAudioFocus_` says; the keys are registered again only when the last
registration was refused or taken back, and the manager has a callback exactly when they are. -/
theorem asked_run (c : Config) (es : List Event) :
    Alternates (run (step c) start es) ∧ Keyed c (run (step c) start es) :=
  run_invariant (I := fun s => Alternates s ∧ Keyed c s)
    (fun _ e h => ⟨h.1.step e, h.2.step e⟩)
    ⟨⟨.singleton _, rfl⟩, .singleton _, by simp [State.keys, start]⟩ es

/-! ### The mode that is taken away -/

/-- The app has the audio if it thinks so. -/
def Granted (s : State) : Prop := s.hasAudioFocus_ = true → s.granted = true

/-- The head unit takes the mode away only from an app that has given it back. -/
def Lets (s : State) : Event → Prop
  | .rcvOffInsCmd => s.hasAudioFocus_ = false
  | _ => True

theorem granted_call (cs : List Call) (s : State) :
    (s.call cs).granted = (cs.filterMap Call.mode).getLast?.getD s.granted := by
  rw [State.granted, State.granted, State.call, List.filterMap_append, List.getLast?_append]
  cases (cs.filterMap Call.mode).getLast? <;> rfl

theorem Granted.same (h : Granted s) (hg : s'.granted = s.granted)
    (hf : s'.hasAudioFocus_ = s.hasAudioFocus_) : Granted s' := by
  rw [Granted, hg, hf]
  exact h

theorem Granted.request (h : Granted s) : Granted (requestAudioFocus c s) := by
  unfold requestAudioFocus
  split_ifs
  · exact h
  · exact fun _ => granted_call ..
  · exact h

theorem Granted.release (h : Granted s) : Granted (releaseAudioFocus c s) := by
  unfold releaseAudioFocus
  split_ifs
  · exact h
  · exact (nomatch ·)
  · exact h

theorem Granted.registerKeys (h : Granted s) (ret : Option ℤ) :
    Granted (registerModeMgrSWKeyCallback c ret s) := by
  unfold registerModeMgrSWKeyCallback
  split
  · exact h
  · exact h.same (granted_call ..) rfl

theorem Granted.register (h : Granted s) (ret : Option ℤ) :
    Granted (registerModeMgrCallback c ret s) := by
  unfold registerModeMgrCallback
  split_ifs
  · apply Granted.registerKeys
    exact h.same (granted_call ..) rfl
  · exact h

theorem Granted.unregister (h : Granted s) : Granted (unregisterModeMgrCallback c s) := by
  unfold unregisterModeMgrCallback
  split_ifs
  · exact h
  · dsimp only
    split
    · exact h.same ((granted_call ..).trans (granted_call ..)) rfl
    · exact h.same (granted_call ..) rfl

theorem granted_step (h : Granted s) (e : Event) : Granted (step c s e) ↔ Lets s e := by
  cases e with
  | requestAudioFocus => exact iff_of_true h.request trivial
  | releaseAudioFocus => exact iff_of_true h.release trivial
  | initAudioBinding ret =>
      refine iff_of_true ?_ trivial
      simp only [step]
      split_ifs
      · exact h
      · exact h.register ret
  | endAudioBinding => exact iff_of_true h.release.unregister trivial
  | rcvOnInsCmd => exact iff_of_true (fun _ => granted_call ..) trivial
  | rcvOffInsCmd =>
      have htaken : (step c s .rcvOffInsCmd).granted = false := granted_call ..
      rw [Granted, htaken, Lets]
      exact ⟨fun hno => Bool.eq_false_iff.2 fun hyes => Bool.false_ne_true (hno hyes),
        fun hno hyes => absurd (hno.symm.trans hyes) Bool.false_ne_true⟩
  | onServiceDisconnected =>
      refine iff_of_true ?_ trivial
      simp only [step]
      split_ifs
      · exact h.same (granted_call ..) rfl
      · exact h

/-- The app gives the audio back. -/
def Event.GivesBack : Event → Prop
  | .releaseAudioFocus | .endAudioBinding => True
  | _ => False

instance : ∀ e : Event, Decidable e.GivesBack
  | .releaseAudioFocus | .endAudioBinding => .isTrue trivial
  | .requestAudioFocus | .initAudioBinding _ | .rcvOnInsCmd | .rcvOffInsCmd
  | .onServiceDisconnected => .isFalse id

/-- Who believes to have the audio asks for nothing. -/
theorem requestAudioFocus_of_focus (h : s.hasAudioFocus_ = true) : requestAudioFocus c s = s := by
  unfold requestAudioFocus
  split_ifs with hmissing hfocus
  · rfl
  · exact absurd (h.symm.trans hfocus) Bool.false_ne_true.symm
  · rfl

@[simp] theorem focus_registerKeys (ret : Option ℤ) (s : State) :
    (registerModeMgrSWKeyCallback c ret s).hasAudioFocus_ = s.hasAudioFocus_ := by
  unfold registerModeMgrSWKeyCallback
  split <;> rfl

@[simp] theorem focus_register (ret : Option ℤ) (s : State) :
    (registerModeMgrCallback c ret s).hasAudioFocus_ = s.hasAudioFocus_ := by
  unfold registerModeMgrCallback
  split_ifs
  · rw [focus_registerKeys]
    rfl
  · rfl

/-- Only giving the audio back ends the belief to have it. -/
theorem focus_step (h : s.hasAudioFocus_ = true) {e : Event} (he : ¬ e.GivesBack) :
    (step c s e).hasAudioFocus_ = true := by
  cases e with
  | requestAudioFocus => rwa [step, requestAudioFocus_of_focus h]
  | releaseAudioFocus => exact absurd trivial he
  | initAudioBinding ret =>
      simp only [step]
      split_ifs
      · exact h
      · rwa [focus_register]
  | endAudioBinding => exact absurd trivial he
  | rcvOnInsCmd => exact h
  | rcvOffInsCmd => exact h
  | onServiceDisconnected =>
      simp only [step]
      split_ifs
      · exact h
      · exact h

/-- **The app has the audio whenever it thinks so, exactly when the head unit never takes the
mode away from an app that did not give it back.**  After that, and until the app does give it
back, it thinks that it has the audio, and `requestAudioFocus` does nothing. -/
theorem granted_iff (c : Config) (es : List Event) :
    (Along (step c) (fun s e => Granted (step c s e)) start es ↔ Along (step c) Lets start es) ∧
      ∀ fs : List Event, (run (step c) start es).hasAudioFocus_ = true →
        (∀ e ∈ fs, ¬ e.GivesBack) →
          (run (step c) start (es ++ .rcvOffInsCmd :: fs)).hasAudioFocus_ = true ∧
            step c (run (step c) start (es ++ .rcvOffInsCmd :: fs)) .requestAudioFocus =
              run (step c) start (es ++ .rcvOffInsCmd :: fs) := by
  constructor
  · exact along_step_iff (I := Granted) (fun _ e h => granted_step h e)
      (fun h => absurd h Bool.false_ne_true) es
  · intro fs hfocus hfs
    have hkept : (run (step c) start (es ++ .rcvOffInsCmd :: fs)).hasAudioFocus_ = true := by
      rw [run_append, run_cons]
      exact (along_of_forall_mem hfs _).invariant (I := fun s : State => s.hasAudioFocus_ = true)
        (fun _ _ h he => focus_step h he) (focus_step hfocus (e := .rcvOffInsCmd) id)
    exact ⟨hkept, requestAudioFocus_of_focus hkept⟩

/-- The user chooses the radio on the head unit, and comes back to the app: it asks for nothing,
with the radio on. -/
theorem granted_iff_radio :
    let s := run (step ⟨true, true, 136⟩) start
      [.requestAudioFocus, .initAudioBinding (some 136), .rcvOnInsCmd, .rcvOffInsCmd,
        .initAudioBinding (some 136)]
    step ⟨true, true, 136⟩ s .requestAudioFocus = s ∧ s.hasAudioFocus_ = true ∧
      s.granted = false := by
  obtain ⟨-, hafter⟩ := granted_iff ⟨true, true, 136⟩
    [.requestAudioFocus, .initAudioBinding (some 136), .rcvOnInsCmd]
  obtain ⟨hfocus, hsame⟩ := hafter [.initAudioBinding (some 136)] (by decide) (by decide)
  exact ⟨hsame, hfocus, by decide⟩

end ModeMgr
end Manager
end Carlinkit
