/-
# Whether a mute reaches the tracks

`CarlinkitAudioPlayer.setMuted` sets a flag and queues an event; the flag keeps PCM from the
tracks from then on, and the event pauses those that play.  The worker tests the flag before
it plays a track, and may be overtaken there, so it is the event that has to come: `Decided`
says that while the flag is set, the last mute event on its way is a mute, or the worker is
silencing the tracks, or they are silent.

A command that finds the queue full clears it, and the event with it (`LosesMute`).
`silent_run` says that this, or that the event itself is refused, is all that can leave a
track playing.
-/

import Carlinkit.App.AudioWorker
import Carlinkit.App.QueueMoves

namespace Carlinkit
namespace App
namespace Audio

open Framing Protocol Machine

/-- What a mute event asks for. -/
def Item.mute : Item → Option Bool
  | .control (.mute muted) => some muted
  | _ => none

theorem Item.mute_eq_some {item : Item} {muted : Bool} :
    item.mute = some muted ↔ item = .control (.mute muted) := by
  rcases item with p | (⟨c, d⟩ | b) <;> simp [Item.mute]

/-- The mute events in the queue, oldest first. -/
def Buffers.mutes (b : Buffers) : List Bool := b.queue.filterMap fun w => w.item.mute

/-- The mute event that a thread is about to queue. -/
def CallerPc.mutes : CallerPc → List Bool
  | .muteCheck muted | .control (.mute muted) _ => [muted]
  | _ => []

/-- The thread is in `clearQueueAndRecycle` of an offer. -/
def ReaderPc.clears : ReaderPc → Bool
  | .control _ (.clear _) => true
  | _ => false

/-- The worker goes on with its loop. -/
def WorkerPc.Looping : WorkerPc → Prop
  | .unborn | .catching | .leaving | .stopTrack .. | .release .. | .forget | .ending | .ended
  | .dead => False
  | .recycle _ threw => threw = false
  | _ => True

/-- The worker has processed what it polled. -/
def WorkerPc.Waiting : WorkerPc → Prop
  | .checkRunning | .checkThread | .poll => True
  | _ => False

instance : ∀ pc : WorkerPc, Decidable pc.Waiting
  | .checkRunning | .checkThread | .poll => .isTrue trivial
  | .unborn | .wokenRunning | .wokenThread | .pcm _ | .ensure _ | .create _ | .playFresh ..
  | .play .. | .write .. | .recycle .. | .command .. | .mute _ | .pause .. | .flush ..
  | .unmute .. | .catching | .leaving | .stopTrack .. | .release .. | .forget | .ending
  | .ended | .dead => .isFalse id

namespace Buffers

variable {b : Buffers}

theorem mutes_evict {seen : ℕ} {missed : Bool} {x : Work × Pcm}
    (h : b.oldestPcm seen missed = some x) : (b.evict x.1).mutes = b.mutes := by
  have hitem := (mem_of_oldestPcm (w := x.1) (q := x.2) h).2
  have herase : ∀ l : List Work, (l.erase x.1).filterMap (fun w => w.item.mute) =
      l.filterMap fun w => w.item.mute := by
    intro l
    induction l with
    | nil => rfl
    | cons w l ih =>
        rw [List.erase_cons]
        split_ifs with heq
        · rw [List.filterMap_cons, eq_of_beq heq, hitem]
          rfl
        · rw [List.filterMap_cons, List.filterMap_cons, ih]
  exact herase b.queue

theorem mutes_poll {item : Item} {b' : Buffers} (h : b.poll = some (item, b')) :
    b.mutes = item.mute.toList ++ b'.mutes := by
  obtain ⟨w, queue, hq, rfl, rfl⟩ := poll_eq_some h
  rw [mutes, hq, mutes, List.filterMap_cons]
  cases w.item.mute <;> rfl

theorem head_of_poll {item : Item} {b' : Buffers} (h : b.poll = some (item, b')) :
    b.queue.head?.map Work.item = some item := by
  obtain ⟨w, queue, hq, rfl, -⟩ := poll_eq_some h
  rw [hq]
  rfl

theorem mutes_recycle (b : Buffers) (a : ℕ) : (b.recycle a).mutes = b.mutes := by
  rw [mutes, (sameQueue_recycle b a).queue, mutes]

theorem mutes_accept (b : Buffers) (item : Item) :
    (b.accept item).mutes = b.mutes ++ item.mute.toList := by
  rw [mutes, accept, List.filterMap_append, mutes]
  cases h : item.mute <;> simp [h]

/-- `offerPcm` leaves the mute events. -/
theorem mutes_offerPcm (b : Buffers) (p : Pcm) (missed : Bool) (pc : PcmPc) :
    (b.offerPcm p missed pc).1.mutes = b.mutes := by
  have haccept : ∀ b : Buffers, (b.accept (.pcm p)).mutes = b.mutes := fun b =>
    (mutes_accept b _).trans (List.append_nil _)
  unfold offerPcm
  cases pc with
  | trimScan n seen | scan seen =>
      simp only
      cases hx : b.oldestPcm seen missed with
      | none => rfl
      | some x => exact mutes_evict hx
  | size | trimDrop n | drop => rfl
  | trim n =>
      simp only
      split_ifs <;> rfl
  | trimmed n a | dropped a | refuse => exact mutes_recycle ..
  | offer =>
      simp only
      split_ifs
      · exact haccept b
      · rfl
  | again =>
      simp only
      split_ifs
      · exact haccept (b.drop 1)
      · rfl

/-- What a step of `offerControl` does to the mute events. -/
inductive MuteMove (b : Buffers) (c : Control) (pc : ControlPc) :
    Buffers × Option ControlPc → Prop
  | stay (b' : Buffers) (next : ControlPc) (mutes : b'.mutes = b.mutes) :
      MuteMove b c pc (b', some next)
  | clear (b' : Buffers) (next : ControlPc) (item : Item) (n : ℕ) (at_clear : pc = .clear n)
      (polled : b.poll = some (item, b')) : MuteMove b c pc (b', some next)
  | accept (b' : Buffers) (mutes : b'.mutes = b.mutes ++ (Item.control c).mute.toList) :
      MuteMove b c pc (b', none)
  | refuse (at_last : pc = .last) (full : ¬ b.HasRoom) : MuteMove b c pc (b, none)

theorem muteMove_offerControl (b : Buffers) (c : Control) (missed : Bool) (pc : ControlPc) :
    b.MuteMove c pc (b.offerControl c missed pc) := by
  unfold offerControl
  cases pc with
  | drop n | discard => exact .stay _ _ rfl
  | scan n seen =>
      simp only
      cases hx : b.oldestPcm seen missed with
      | none => exact .stay _ _ rfl
      | some x => exact .stay _ _ (mutes_evict hx)
  | dropped n a | clearing n a => exact .stay _ _ (mutes_recycle ..)
  | offer =>
      simp only
      split_ifs
      · exact .accept _ (mutes_accept ..)
      · exact .stay _ _ rfl
  | clear n =>
      simp only
      match hpoll : b.poll with
      | none => exact .stay _ _ rfl
      | some (.pcm p, b') | some (.control d, b') => exact .clear _ _ _ n rfl hpoll
  | last =>
      simp only
      split_ifs with hroom
      · exact .accept _ (mutes_accept ..)
      · exact .refuse rfl hroom

end Buffers

namespace Tracks

/-- No track plays but those in the list. -/
def Silent (ts : Tracks) (but : List ℕ) : Prop := ∀ a ∈ ts.values, ts.playing a = true → a ∈ but

/-- Where the worker is, the tracks are silent, or will be before it polls again. -/
def Hushes (ts : Tracks) : WorkerPc → Prop
  | .mute muted => muted = true
  | .pause a rest => ts.Silent (a :: rest)
  | .flush _ rest => ts.Silent rest
  | .playFresh .. | .play .. | .unmute .. => False
  | _ => ts.Silent []

end Tracks

namespace State

/-- The mute events that the worker has not polled yet, where thread `m` calls `setMuted`. -/
def pending (s : State) (m : ℕ) : List Bool := s.buffers.mutes ++ (s.callers m).mutes

/-- One thread calls `setMuted`, nobody starts or stops the player, and no call of a track
throws. -/
def Ordinary (m : ℕ) (s : State) : Event → Prop
  | .call i (.setMuted _) => i = m
  | .call _ _ | .throw _ => False
  | .worker t ok => ok = true ∨ (s.workers t).uses = none
  | _ => True

/-- The last mute is thrown away: a command that clears the queue polls it, or `offerControl`
refuses it. -/
def LosesMute (m : ℕ) (s : State) : Event → Prop
  | .read _ =>
      s.reader.clears = true ∧ s.pending m = [true] ∧
        (s.buffers.queue.head?.map Work.item) = some (.control (.mute true))
  | .caller .. => s.callers m = .control (.mute true) .last ∧ ¬ s.buffers.HasRoom
  | _ => False

/-- The flag is set, and the tracks are silent, or the last event on its way says so. -/
def Decided (m t : ℕ) (s : State) : Prop :=
  s.muted = true → (s.pending m).getLast? = some true ∨
    (s.pending m = [] ∧ s.tracks.Hushes (s.workers t))

/-- Where the thread that calls `setMuted` may be. -/
def Calls (muted : Bool) : CallerPc → Prop
  | .idle | .mute _ => True
  | .muteCheck b | .control (.mute b) _ => b = muted
  | _ => False

/-- The player runs with worker `t`, and thread `m` calls `setMuted`. -/
structure Muting (m t : ℕ) (s : State) : Prop where
  running : s.running = true
  thread : s.audioThread = some t
  looping : (s.workers t).Looping
  alone : ∀ u, u ≠ t → ¬ (s.workers u).InRun
  reader : ∀ c pc, s.reader = .control c pc → (Item.control c).mute = none
  others : ∀ i, i ≠ m → s.callers i = .idle
  calls : Calls s.muted (s.callers m)
  decided : s.Decided m t

/-- `start` is over: there is a worker and no track, and nobody calls. -/
structure Started (t : ℕ) (s : State) : Prop where
  running : s.running = true
  thread : s.audioThread = some t
  worker : s.workers t = .checkRunning
  alone : ∀ u, u ≠ t → ¬ (s.workers u).InRun
  reader : ∀ c pc, s.reader = .control c pc → (Item.control c).mute = none
  callers : ∀ i, s.callers i = .idle
  mutes : s.buffers.mutes = []
  tracks : s.tracks.values = []

variable {m t : ℕ} {s s' : State}

theorem Started.muting (h : s.Started t) (m : ℕ) : s.Muting m t where
  running := h.running
  thread := h.thread
  looping := by rw [h.worker]; trivial
  alone := h.alone
  reader := h.reader
  others i _ := h.callers i
  calls := by rw [h.callers]; trivial
  decided _ := by
    refine .inr ⟨by rw [pending, h.mutes, h.callers]; rfl, ?_⟩
    rw [h.worker]
    intro a ha
    rw [h.tracks] at ha
    exact absurd ha List.not_mem_nil

/-! ### The worker -/

/-- The worker goes on. -/
theorem Muting.works (h : s.Muting m t) {q : WorkerPc}
    (hworkers : s'.workers = Function.update s.workers t q) (hcallers : s'.callers = s.callers)
    (hreader : s'.reader = s.reader) (hmuted : s'.muted = s.muted)
    (hrunning : s'.running = s.running) (hthread : s'.audioThread = s.audioThread)
    (hlooping : q.Looping) (hdecided : s'.Decided m t) : s'.Muting m t where
  running := hrunning.trans h.running
  thread := hthread.trans h.thread
  looping := by rwa [hworkers, Function.update_self]
  alone u hu := by
    rw [hworkers, Function.update_of_ne hu]
    exact h.alone u hu
  reader := hreader ▸ h.reader
  others := hcallers ▸ h.others
  calls := by
    rw [hmuted, hcallers]
    exact h.calls
  decided := hdecided

/-- The worker goes on, and no mute event is polled. -/
theorem Muting.worksOn (h : s.Muting m t) {q : WorkerPc}
    (hworkers : s'.workers = Function.update s.workers t q) (hcallers : s'.callers = s.callers)
    (hreader : s'.reader = s.reader) (hmuted : s'.muted = s.muted)
    (hrunning : s'.running = s.running) (hthread : s'.audioThread = s.audioThread)
    (hmutes : s'.buffers.mutes = s.buffers.mutes) (hlooping : q.Looping)
    (hhushes : s.muted = true → s.tracks.Hushes (s.workers t) → s'.tracks.Hushes q) :
    s'.Muting m t := by
  refine h.works hworkers hcallers hreader hmuted hrunning hthread hlooping fun hon => ?_
  rw [hmuted] at hon
  have hpending : s'.pending m = s.pending m := by rw [pending, hmutes, hcallers, pending]
  rw [hpending, hworkers, Function.update_self]
  exact (h.decided hon).imp_right fun hquiet => ⟨hquiet.1, hhushes hon hquiet.2⟩

theorem Tracks.Silent.setPlaying {ts : Tracks} {a : ℕ} {rest : List ℕ}
    (h : ts.Silent (a :: rest)) : (ts.setPlaying a false).Silent rest := by
  intro b hb hplaying
  replace hplaying : Function.update ts.playing a false b = true := hplaying
  by_cases hba : b = a
  · rw [hba, Function.update_self] at hplaying
    exact absurd hplaying Bool.false_ne_true
  · rw [Function.update_of_ne hba] at hplaying
    exact (List.mem_cons.1 (h b hb hplaying)).resolve_left hba

/-- A new track does not play before `play`. -/
theorem silent_put {ts : Tracks} (h : ts.Silent []) (d : BitVec 32) :
    (Tracks.put { ts.setPlaying ts.made false with made := ts.made + 1 } d ts.made).Silent [] := by
  intro a ha hplaying
  replace hplaying : Function.update ts.playing ts.made false a = true := hplaying
  replace ha : a ∈ (ts.tracks ++ [(d, ts.made)]).map Prod.snd := ha
  by_cases hmade : a = ts.made
  · rw [hmade, Function.update_self] at hplaying
    exact absurd hplaying Bool.false_ne_true
  · rw [Function.update_of_ne hmade] at hplaying
    rw [List.map_append, List.mem_append] at ha
    exact h a (ha.resolve_right fun hlast => hmade (List.mem_singleton.1 hlast)) hplaying

/-- The next call of `applyMuted(true)`. -/
theorem hushes_nextMuted {ts : Tracks} {rest : List ℕ} (h : ts.Silent rest) :
    ts.Hushes (Tracks.nextMuted true rest) := by
  cases rest <;> exact h

theorem looping_nextMuted (muted : Bool) (rest : List ℕ) :
    (Tracks.nextMuted muted rest).Looping := by
  cases rest <;> cases muted <;> trivial

/-- What the worker polls is no longer on its way. -/
theorem Muting.polls (h : s.Muting m t) (hpc : s.workers t = .poll) {item : Item} {b : Buffers}
    (hpoll : s.buffers.poll = some (item, b)) :
    ({ s with buffers := b }.setWorker t (dispatch item)).Muting m t := by
  have hlooping : (dispatch item).Looping := by
    rcases item with p | (⟨c, d⟩ | muted) <;> trivial
  refine h.works rfl rfl rfl rfl rfl rfl hlooping fun hon => ?_
  have hmutes := Buffers.mutes_poll hpoll
  have hpending : s.pending m = item.mute.toList ++ (b.mutes ++ (s.callers m).mutes) := by
    rw [pending, hmutes, List.append_assoc]
  have hdecided := h.decided hon
  rw [hpending, hpc] at hdecided
  show (b.mutes ++ (s.callers m).mutes).getLast? = some true ∨
    (b.mutes ++ (s.callers m).mutes = [] ∧
      s.tracks.Hushes (Function.update s.workers t (dispatch item) t))
  rw [Function.update_self]
  by_cases hrest : b.mutes ++ (s.callers m).mutes = []
  · rw [hrest] at hdecided ⊢
    refine .inr ⟨rfl, ?_⟩
    rcases item with p | (⟨c, d⟩ | muted)
    · have hsilent : s.tracks.Hushes .poll := by simpa [Item.mute] using hdecided
      exact hsilent
    · have hsilent : s.tracks.Hushes .poll := by simpa [Item.mute] using hdecided
      exact hsilent
    · have hmute : muted = true := by simpa [Item.mute] using hdecided
      exact hmute
  · refine .inl ?_
    rcases hdecided with hlast | ⟨hnone, -⟩
    · rwa [List.getLast?_append_of_ne_nil _ hrest] at hlast
    · exact absurd (List.append_eq_nil_iff.1 hnone).2 hrest

/-- A step of the worker in its loop. -/
theorem Muting.workerStep (h : s.Muting m t) {ok : Bool}
    (hok : ok = true ∨ (s.workers t).uses = none) : (s.workerStep t ok).Muting m t := by
  have hstay : ∀ {q : WorkerPc}, q.Looping →
      (s.muted = true → s.tracks.Hushes (s.workers t) → s.tracks.Hushes q) →
      (s.setWorker t q).Muting m t := fun hlooping hhushes =>
    h.worksOn rfl rfl rfl rfl rfl rfl rfl hlooping hhushes
  have htracks : ∀ {q : WorkerPc} {ts : Tracks}, q.Looping →
      (s.muted = true → s.tracks.Hushes (s.workers t) → ts.Hushes q) →
      ({ s with tracks := ts }.setWorker t q).Muting m t := fun hlooping hhushes =>
    h.worksOn rfl rfl rfl rfl rfl rfl rfl hlooping hhushes
  have hlooping := h.looping
  unfold State.workerStep
  cases hpc : s.workers t with
  | unborn | dead | catching | leaving | stopTrack | release | forget | ending | ended =>
      rw [hpc] at hlooping
      exact hlooping.elim
  | checkRunning | wokenRunning =>
      simp only [h.running, if_true]
      exact hstay trivial fun _ hq => by rwa [hpc] at hq
  | checkThread | wokenThread =>
      simp only [h.thread, if_true]
      exact hstay trivial fun _ hq => by rwa [hpc] at hq
  | poll =>
      simp only
      split_ifs with hinterrupted
      · exact h.worksOn rfl rfl rfl rfl rfl rfl rfl trivial fun _ hq => by rwa [hpc] at hq
      · cases hpoll : s.buffers.poll with
        | none => exact hstay trivial fun _ hq => by rwa [hpc] at hq
        | some polled =>
            obtain ⟨item, b⟩ := polled
            exact h.polls hpc hpoll
  | pcm p =>
      simp only
      split_ifs <;> exact hstay (by trivial) fun _ hq => by rwa [hpc] at hq
  | ensure p =>
      simp only [ensureStep]
      cases s.tracks.current p.decodeType with
      | some a =>
          simp only
          split_ifs with hquiet
          · exact hstay trivial fun _ hq => by rwa [hpc] at hq
          · exact hstay trivial fun hon => absurd (.inl hon) hquiet
      | none =>
          cases s.tracks.get p.decodeType with
          | some a =>
              simp only
              split_ifs with hon
              · exact htracks trivial fun _ hq => by rwa [hpc] at hq
              · exact htracks trivial fun hon' => absurd hon' hon
          | none =>
              simp only
              split_ifs <;> exact hstay (by trivial) fun _ hq => by rwa [hpc] at hq
  | create p =>
      simp only [createStep]
      split_ifs with hmade hon
      · refine htracks trivial fun _ hq => ?_
        rw [hpc] at hq
        exact silent_put hq p.decodeType
      · exact htracks trivial fun hon' => absurd hon' hon
      · exact hstay rfl fun _ hq => by rwa [hpc] at hq
  | playFresh p a =>
      have htrue : ok = true := hok.resolve_right (by rw [hpc]; exact Option.some_ne_none _)
      simp only [htrue, if_true]
      exact htracks trivial fun _ hq => by
        rw [hpc] at hq
        exact hq.elim
  | play p a =>
      refine htracks trivial fun _ hq => ?_
      rw [hpc] at hq
      exact hq.elim
  | write p a => exact hstay rfl fun _ hq => by rwa [hpc] at hq
  | recycle p threw =>
      rw [hpc] at hlooping
      obtain rfl : threw = false := hlooping
      exact h.worksOn rfl rfl rfl rfl rfl rfl (Buffers.mutes_recycle ..) trivial fun _ hq => by
        rwa [hpc] at hq
  | command c d =>
      simp only [commandStep]
      split
      · split_ifs
        · refine hstay trivial fun _ hq a ha hplaying => ?_
          rw [hpc] at hq
          exact absurd (hq a ha hplaying) List.not_mem_nil
        · exact hstay trivial fun _ hq => by rwa [hpc] at hq
      · exact hstay trivial fun _ hq => by rwa [hpc] at hq
  | mute muted =>
      refine hstay (looping_nextMuted ..) fun _ hq => ?_
      rw [hpc] at hq
      obtain rfl : muted = true := hq
      exact hushes_nextMuted fun a ha _ => ha
  | pause a rest =>
      have htrue : ok = true := hok.resolve_right (by rw [hpc]; exact Option.some_ne_none _)
      simp only [htrue, if_true]
      refine htracks trivial fun _ hq => ?_
      rw [hpc] at hq
      exact Tracks.Silent.setPlaying hq
  | flush a rest =>
      refine hstay (looping_nextMuted ..) fun _ hq => ?_
      rw [hpc] at hq
      exact hushes_nextMuted hq
  | unmute a rest =>
      refine htracks (looping_nextMuted ..) fun _ hq => ?_
      rw [hpc] at hq
      exact hq.elim

/-- A worker that is not in `run` ends, and concerns nothing else. -/
theorem Muting.otherWorker (h : s.Muting m t) {u : ℕ} (hu : u ≠ t) (ok : Bool) :
    (s.workerStep u ok).Muting m t := by
  have hmoves : ∀ {q : WorkerPc}, ¬ q.InRun → (s.setWorker u q).Muting m t := by
    intro q hq
    have hsame : (s.setWorker u q).workers t = s.workers t := Function.update_of_ne (Ne.symm hu) ..
    refine ⟨h.running, h.thread, hsame ▸ h.looping, fun v hv => ?_, h.reader, h.others, h.calls,
      ?_⟩
    · by_cases hvu : v = u
      · rw [hvu]
        show ¬ (Function.update s.workers u q u).InRun
        rwa [Function.update_self]
      · show ¬ (Function.update s.workers u q v).InRun
        rw [Function.update_of_ne hvu]
        exact h.alone v hv
    · intro hon
      rw [hsame]
      exact h.decided hon
  have hout := h.alone u hu
  unfold State.workerStep
  cases hpc : s.workers u with
  | unborn | dead => exact h
  | ending =>
      have hother : ¬ s.audioThread = some u := by
        rw [h.thread]
        exact fun heq => hu (Option.some.inj heq).symm
      simp only [if_neg hother]
      split_ifs
      · exact hmoves id
      · exact h
  | ended => exact hmoves id
  | _ => exact absurd (by rw [hpc]; trivial) hout

/-! ### The queue -/

/-- The read thread or the caller goes on, and the worker stays where it is. -/
theorem Muting.serves (h : s.Muting m t) (hworkers : s'.workers = s.workers)
    (hmuted : s'.muted = s.muted) (hrunning : s'.running = s.running)
    (hthread : s'.audioThread = s.audioThread) (htracks : s'.tracks = s.tracks)
    (hreader : ∀ c pc, s'.reader = .control c pc → (Item.control c).mute = none)
    (hothers : ∀ i, i ≠ m → s'.callers i = .idle) (hcalls : Calls s'.muted (s'.callers m))
    (hpending : s.muted = true → s'.pending m = s.pending m ∨
      (s'.pending m).getLast? = some true) : s'.Muting m t where
  running := hrunning.trans h.running
  thread := hthread.trans h.thread
  looping := hworkers ▸ h.looping
  alone := hworkers ▸ h.alone
  reader := hreader
  others := hothers
  calls := hcalls
  decided hon := by
    rw [hmuted] at hon
    rcases hpending hon with hsame | hlast
    · rw [hsame, hworkers, htracks]
      exact h.decided hon
    · exact .inl hlast

/-- `onAudio` polls when it clears the queue, and queues no mute event. -/
theorem readStep_mutes (hreader : ∀ c pc, s.reader = .control c pc → (Item.control c).mute = none)
    (missed : Bool) : ∃ b q, s.readStep missed = { s with buffers := b, reader := q } ∧
      (∀ c pc, q = .control c pc → (Item.control c).mute = none) ∧
      (b.mutes = s.buffers.mutes ∨
        s.reader.clears = true ∧ ∃ item, s.buffers.poll = some (item, b)) := by
  unfold readStep
  cases hpc : s.reader with
  | idle => exact ⟨s.buffers, s.reader, rfl, hreader, .inl rfl⟩
  | check m said =>
      simp only
      split
      · cases m.kind with
        | command => exact ⟨_, _, rfl, fun c pc heq => by cases heq; rfl, .inl rfl⟩
        | pcm =>
            simp only
            split <;> exact ⟨_, _, rfl, nofun, .inl rfl⟩
        | volumeDuration => exact ⟨_, _, rfl, nofun, .inl rfl⟩
      · exact ⟨_, _, rfl, nofun, .inl rfl⟩
  | muteTest m said =>
      refine ⟨_, _, rfl, fun c pc heq => ?_, .inl rfl⟩
      split at heq <;> cases heq
  | acquire m said =>
      refine ⟨(s.buffers.acquire m.pcmLength).2, .copy m said (s.buffers.acquire m.pcmLength).1,
        rfl, nofun, .inl ?_⟩
      rw [Buffers.mutes, (Buffers.sameQueue_acquire ..).queue, Buffers.mutes]
  | copy m said array =>
      simp only
      cases slice s.payload m <;> exact ⟨_, _, rfl, nofun, .inl rfl⟩
  | pcm p pc =>
      refine ⟨(s.buffers.offerPcm p missed pc).1,
        (s.buffers.offerPcm p missed pc).2.elim .idle (.pcm p), rfl, fun c pc' heq => ?_,
        .inl (Buffers.mutes_offerPcm ..)⟩
      cases hnext : (s.buffers.offerPcm p missed pc).2 <;> rw [hnext] at heq <;> cases heq
  | control c pc =>
      have hnone : (Item.control c).mute = none := hreader c pc hpc
      refine ⟨(s.buffers.offerControl c missed pc).1,
        (s.buffers.offerControl c missed pc).2.elim .idle (.control c), rfl,
        fun c' pc' heq => ?_, ?_⟩
      · cases hnext : (s.buffers.offerControl c missed pc).2 <;> rw [hnext] at heq <;> cases heq
        exact hnone
      · rcases hmove : s.buffers.offerControl c missed pc with ⟨b, next⟩
        have hcases := s.buffers.muteMove_offerControl c missed pc
        rw [hmove] at hcases
        cases hcases with
        | stay _ next mutes => exact .inl mutes
        | clear _ next item n at_clear polled =>
            subst at_clear
            exact .inr ⟨rfl, item, polled⟩
        | accept _ mutes => exact .inl (by rw [mutes, hnone]; exact List.append_nil _)
        | refuse at_last full => exact .inl rfl

/-- A step of the read thread that does not lose the last mute. -/
theorem Muting.readStep (h : s.Muting m t) {missed : Bool}
    (hspared : ¬ s.LosesMute m (.read missed)) :
    (s.readStep missed).Muting m t := by
  obtain ⟨b, q, hstep, hreader, hmutes⟩ := readStep_mutes h.reader missed
  rw [hstep]
  refine h.serves rfl rfl rfl rfl rfl hreader h.others h.calls fun hon => ?_
  show b.mutes ++ (s.callers m).mutes = s.buffers.mutes ++ (s.callers m).mutes ∨
    (b.mutes ++ (s.callers m).mutes).getLast? = some true
  rcases hmutes with hsame | ⟨hclears, item, hpoll⟩
  · rw [hsame]
    exact .inl rfl
  · have hpending : s.pending m = item.mute.toList ++ (b.mutes ++ (s.callers m).mutes) := by
      rw [pending, Buffers.mutes_poll hpoll, List.append_assoc]
    cases hitem : item.mute with
    | none => exact .inl (by rw [Buffers.mutes_poll hpoll, hitem]; rfl)
    | some muted =>
        rw [hitem] at hpending
        have hlast : (s.pending m).getLast? = some true :=
          (h.decided hon).resolve_right fun hquiet => by simp [hpending] at hquiet
        rw [hpending] at hlast
        by_cases hrest : b.mutes ++ (s.callers m).mutes = []
        · -- the last mute would be lost
          rw [hrest] at hpending hlast
          obtain rfl : muted = true := by simpa using hlast
          refine absurd ⟨hclears, hpending, ?_⟩ hspared
          rw [Buffers.head_of_poll hpoll, Item.mute_eq_some.1 hitem]
        · rw [List.getLast?_append_of_ne_nil _ hrest] at hlast
          exact .inr hlast

/-- A step of the caller of `setMuted` whose event is not refused. -/
theorem Muting.callerStep (h : s.Muting m t) {ok missed : Bool}
    (hspared : ¬ s.LosesMute m (.caller m ok missed)) : (s.callerStep m ok missed).Muting m t := by
  have hothers : ∀ {s' : State} {q : CallerPc}, s'.callers = Function.update s.callers m q →
      ∀ i, i ≠ m → s'.callers i = .idle := by
    intro s' q hcallers i hi
    rw [hcallers, Function.update_of_ne hi]
    exact h.others i hi
  have hcalls := h.calls
  unfold State.callerStep
  cases hpc : s.callers m with
  | idle => exact h
  | mute muted =>
      refine ⟨h.running, h.thread, h.looping, h.alone, h.reader, hothers rfl, ?_, fun hon => ?_⟩
      · show Calls muted (Function.update s.callers m (.muteCheck muted) m)
        rw [Function.update_self]
        rfl
      · obtain rfl : muted = true := hon
        refine .inl ?_
        show (s.buffers.mutes ++
          (Function.update s.callers m (.muteCheck true) m).mutes).getLast? = _
        rw [Function.update_self]
        exact List.getLast?_concat
  | muteCheck muted =>
      rw [hpc] at hcalls
      simp only [h.running, if_true]
      refine h.serves rfl rfl rfl rfl rfl h.reader (hothers rfl) ?_ fun _ => .inl ?_
      · show Calls s.muted (Function.update s.callers m _ m)
        rw [Function.update_self]
        exact hcalls
      · show s.buffers.mutes ++ (Function.update s.callers m _ m).mutes =
          s.buffers.mutes ++ (s.callers m).mutes
        rw [Function.update_self, hpc]
        rfl
  | control c pc =>
      rw [hpc] at hcalls
      obtain ⟨muted, rfl, rfl⟩ : ∃ b, c = .mute b ∧ b = s.muted := by
        cases c with
        | command c d => exact hcalls.elim
        | mute b => exact ⟨b, rfl, hcalls⟩
      rcases hmove : s.buffers.offerControl (.mute s.muted) missed pc with ⟨b, next⟩
      have hcases := s.buffers.muteMove_offerControl (.mute s.muted) missed pc
      rw [hmove] at hcases
      have hpending : s.pending m = s.buffers.mutes ++ [s.muted] := by
        rw [pending, hpc]
        rfl
      simp only [hmove]
      refine h.serves rfl rfl rfl rfl rfl h.reader (hothers rfl) ?_ fun hon => ?_
      · show Calls s.muted (Function.update s.callers m _ m)
        rw [Function.update_self]
        cases next with
        | none => trivial
        | some pc' => exact rfl
      · rw [hpending]
        show b.mutes ++ (Function.update s.callers m _ m).mutes = _ ∨
          (b.mutes ++ (Function.update s.callers m _ m).mutes).getLast? = _
        rw [Function.update_self]
        cases hcases with
        | stay _ next mutes => exact .inl (by rw [mutes]; rfl)
        | clear _ next item n at_clear polled =>
            rw [hon]
            exact .inr List.getLast?_concat
        | accept _ mutes => exact .inl (by rw [mutes]; exact List.append_nil _)
        | refuse at_last full =>
            refine absurd ⟨?_, full⟩ hspared
            rw [hpc, at_last, hon]
  | _ =>
      rw [hpc] at hcalls
      exact hcalls.elim

/-- **The step lemma.**  Whoever moves, the mute is decided, unless its event is lost. -/
theorem Muting.step (h : s.Muting m t) {e : Event} (hordinary : s.Ordinary m e)
    (hspared : ¬ s.LosesMute m e) : (s.step e).Muting m t := by
  cases e with
  | receive payload =>
      simp only [State.step]
      split_ifs
      · exact h.serves rfl rfl rfl rfl rfl h.reader h.others h.calls fun _ => .inl rfl
      · exact h
  | onAudio msg =>
      cases msg with
      | none => exact h
      | some msg =>
          simp only [State.step]
          split_ifs
          · refine h.serves rfl rfl rfl rfl rfl ?_ h.others h.calls fun _ => .inl rfl
            rintro c pc ⟨⟩
          · exact h
  | read missed => exact h.readStep hspared
  | call i c =>
      cases c with
      | start | stop => exact hordinary.elim
      | setMuted muted =>
      obtain rfl : i = m := hordinary
      simp only [State.step]
      split_ifs with hidle
      · refine h.serves rfl rfl rfl rfl rfl h.reader (fun j hj => ?_) ?_ fun _ => .inl ?_
        · show Function.update s.callers i _ j = .idle
          rw [Function.update_of_ne hj]
          exact h.others j hj
        · show Calls s.muted (Function.update s.callers i _ i)
          rw [Function.update_self]
          trivial
        · show s.buffers.mutes ++ (Function.update s.callers i _ i).mutes =
            s.buffers.mutes ++ (s.callers i).mutes
          rw [Function.update_self, hidle]
          rfl
      · exact h
  | caller i ok missed =>
      by_cases hi : i = m
      · subst hi
        exact h.callerStep hspared
      · simp only [State.step, State.callerStep, h.others i hi]
        exact h
  | worker u ok =>
      by_cases hu : u = t
      · subst hu
        exact h.workerStep hordinary
      · exact h.otherWorker hu ok
  | throw u => exact hordinary.elim

/-- The worker has processed everything, and nobody calls `setMuted`. -/
def Processed (m t : ℕ) (s : State) : Prop :=
  s.buffers.queue = [] ∧ (s.workers t).Waiting ∧ s.callers m = .idle

instance (m : ℕ) (s : State) : ∀ e, Decidable (s.Ordinary m e)
  | .call i (.setMuted _) => inferInstanceAs (Decidable (i = m))
  | .call _ .start | .call _ .stop | .throw _ => .isFalse id
  | .worker t ok => inferInstanceAs (Decidable (ok = true ∨ (s.workers t).uses = none))
  | .receive _ | .onAudio _ | .read _ | .caller .. => .isTrue trivial

instance (m : ℕ) (s : State) : ∀ e, Decidable (s.LosesMute m e)
  | .read _ => inferInstanceAs (Decidable (_ ∧ _ ∧ _))
  | .caller .. => inferInstanceAs (Decidable (_ ∧ _))
  | .receive _ | .onAudio _ | .call .. | .worker .. | .throw _ => .isFalse id

/-- **A mute reaches the tracks.**  From a started player on, whenever the worker has processed
everything and the last call was `setMuted(true)`, no track plays: in every run in which no
command clears the last mute event out of a full queue, and no mute is refused. -/
theorem silent_run (h : s.Started t) {es : List Event}
    (hrun : Along step (fun s e => s.Ordinary m e ∧ ¬ s.LosesMute m e) s es)
    (hprocessed : (run step s es).Processed m t) (hmuted : (run step s es).muted = true) :
    ∀ a ∈ (run step s es).tracks.values, (run step s es).tracks.playing a = false := by
  have hmuting : (run step s es).Muting m t :=
    hrun.invariant (I := Muting m t) (fun s e hs he => hs.step he.1 he.2) (h.muting m)
  obtain ⟨hqueue, hwaiting, hidle⟩ := hprocessed
  have hpending : (run step s es).pending m = [] := by
    rw [pending, Buffers.mutes, hqueue, hidle]
    rfl
  have hhushes : (run step s es).tracks.Hushes ((run step s es).workers t) :=
    (hmuting.decided hmuted).elim (fun hlast => by simp [hpending] at hlast) And.right
  have hsilent : (run step s es).tracks.Silent [] := by
    cases hpc : (run step s es).workers t <;> rw [hpc] at hhushes hwaiting <;>
      first | exact hhushes | exact hwaiting.elim
  intro a ha
  by_contra hplaying
  exact List.not_mem_nil (hsilent a ha (by simpa using hplaying))

theorem started_startedBy : (run step new (startedBy 0)).Started 0 where
  running := rfl
  thread := rfl
  worker := rfl
  alone u hu := by
    show ¬ (Function.update (fun _ => WorkerPc.unborn) 0 .checkRunning u).InRun
    rw [Function.update_of_ne hu]
    exact id
  reader := nofun
  callers i := by
    simp [startedBy, List.replicate, step, call, callerStep, clearStep, setCaller, setWorker,
      Buffers.poll, new, Buffers.new]
  mutes := rfl
  tracks := rfl

/-- Music plays, and the head unit is muted. -/
def hushed : List Event :=
  [Event.receive (some [1, 2, 3, 4])] ++ heard .pcm 6 ++ List.replicate 9 (Event.worker 0 true) ++
    mutedBy 1 true 5 ++ List.replicate 6 (Event.worker 0 true)

/-- Music plays, and the head unit is muted; but before the worker polls the event, sixteen
commands come. -/
def overheard : List Event :=
  [Event.receive (some [1, 2, 3, 4])] ++ heard .pcm 6 ++ List.replicate 9 (Event.worker 0 true) ++
    mutedBy 1 true 5 ++ (List.replicate 15 (heard .command 2)).flatten ++ heard .command 21 ++
    List.replicate 4 (Event.worker 0 true)

theorem silent_run_hushed : (run step (run step new (startedBy 0)) hushed).tracks.values = [0] ∧
    ∀ a ∈ (run step (run step new (startedBy 0)) hushed).tracks.values,
      (run step (run step new (startedBy 0)) hushed).tracks.playing a = false :=
  ⟨by decide +kernel,
    silent_run (m := 1) started_startedBy (by decide +kernel)
      ⟨by decide +kernel, by decide +kernel, by decide +kernel⟩ (by decide +kernel)⟩

/-- The last command clears the event with the others, and the music plays on. -/
theorem not_silent_overheard :
    ¬ ∀ s t m es, s.Started t → Along step (Ordinary m) s es → (run step s es).Processed m t →
      (run step s es).muted = true →
        ∀ a ∈ (run step s es).tracks.values, (run step s es).tracks.playing a = false := by
  intro h
  have hsilent := h (run step new (startedBy 0)) 0 1 overheard started_startedBy
    (by decide +kernel) ⟨by decide +kernel, by decide +kernel, by decide +kernel⟩
    (by decide +kernel) 0 (by decide +kernel)
  exact absurd hsilent (by decide +kernel)

end State
end Audio
end App
end Carlinkit
