import Cloudpilot.Web.NetworkService

/-! # Who ends a network suspension

A suspension is answered while a session with the emulator has a task for it or waits for the
backend. The service loses the session of a suspension exactly when it is reset in the wrong
moment: the connection is lost, the service is reset from outside, or a session that was given
up before fails to connect.
-/
namespace Cloudpilot.Web

open List

namespace NetworkState

variable {w w' : NetworkState} {i j : ℕ} {s : NetworkSession}

@[simp] theorem sessions_setSession_self : (w.setSession i s).sessions i = s := by
  simp [setSession]

theorem sessions_setSession_ne (h : j ≠ i) : (w.setSession i s).sessions j = w.sessions j := by
  simp [setSession, h]

@[simp] theorem suspend_setSession : (w.setSession i s).suspend = w.suspend := rfl

@[simp] theorem suspend_resetService : w.resetService.suspend = w.suspend := by
  rw [resetService]
  cases w.session <;> rfl

@[simp] theorem session_resetService : w.resetService.session = none := by
  rw [resetService]
  cases h : w.session with
  | none => exact h
  | some i => rfl

/-- Only the session of the service has the emulator, and it is not about to disconnect. -/
structure Sound (w : NetworkState) : Prop where
  current : ∀ i, w.session = some i → (w.sessions i).cloudpilot = true ∧
    (w.sessions i).watched = true ∧ .disconnect ∉ (w.sessions i).queue
  others : ∀ i, w.session ≠ some i → (w.sessions i).cloudpilot = false ∧
    (w.sessions i).watched = false

theorem sound_initial : Sound initial := by
  constructor
  · simp [initial]
  · intro i _
    exact ⟨rfl, rfl⟩

section

variable (h : Sound w)

include h

theorem Sound.setSession (hcloudpilot : s.cloudpilot = (w.sessions i).cloudpilot)
    (hwatched : s.watched = (w.sessions i).watched)
    (hqueue : .disconnect ∈ s.queue → .disconnect ∈ (w.sessions i).queue) :
    Sound (w.setSession i s) := by
  constructor
  · intro k hk
    obtain ⟨h1, h2, h3⟩ := h.current k hk
    by_cases hki : k = i
    · subst hki
      rw [sessions_setSession_self, hcloudpilot, hwatched]
      exact ⟨h1, h2, fun hmem => h3 (hqueue hmem)⟩
    · rw [sessions_setSession_ne hki]
      exact ⟨h1, h2, h3⟩
  · intro k hk
    by_cases hki : k = i
    · subst hki
      rw [sessions_setSession_self, hcloudpilot, hwatched]
      exact h.others k hk
    · rw [sessions_setSession_ne hki]
      exact h.others k hk

theorem Sound.congr (hsession : w'.session = w.session) (hsessions : w'.sessions = w.sessions) :
    Sound w' := by
  constructor
  · rw [hsession, hsessions]
    exact h.current
  · rw [hsession, hsessions]
    exact h.others

theorem Sound.resetService : Sound w.resetService := by
  constructor
  · simp
  · intro i _
    rw [NetworkState.resetService]
    cases hsession : w.session with
    | none =>
      apply h.others i
      rw [hsession]
      simp
    | some k =>
      by_cases hik : i = k
      · subst hik
        simp [NetworkSession.terminate, NetworkSession.runExclusive, NetworkState.setSession]
      · have hother := h.others i (by rw [hsession]; simpa using Ne.symm hik)
        simpa [NetworkState.setSession, hik] using hother

theorem Sound.createNewSession (backend : Bool) : Sound (w.createNewSession backend) := by
  rw [NetworkState.createNewSession]
  have hreset := h.resetService
  cases backend with
  | false => exact hreset
  | true =>
    constructor
    · simp [NetworkSession.create]
    · intro i hi
      have hne : i ≠ w.resetService.nextSession := by grind
      have hother := hreset.others i (by simp)
      simpa [NetworkState.setSession, hne] using hother

theorem Sound.handleSuspend (task : NetworkTask) (htask : task ≠ .disconnect) :
    Sound (w.handleSuspend task) := by
  rw [NetworkState.handleSuspend]
  cases hsession : w.session with
  | none => exact h.congr hsession.symm rfl
  | some i =>
    refine h.setSession (by rfl) (by rfl) ?_
    intro hmem
    rcases mem_append.mp hmem with hmem | hmem
    · exact hmem
    · grind

theorem Sound.resetProxy : Sound w.resetProxy := by
  rw [NetworkState.resetProxy]
  split
  · exact h.resetService.congr rfl rfl
  · exact h

theorem Sound.startTask (i : ℕ) : Sound (w.startTask i) := by
  have hpop : ∀ task queue running socket, (w.sessions i).queue = task :: queue →
      Sound (w.setSession i { (w.sessions i) with
        queue := queue
        running := running
        socket := socket }) := by
    intro task queue running socket hqueue
    refine h.setSession (by rfl) (by rfl) ?_
    intro hmem
    rw [hqueue]
    exact mem_cons_of_mem task hmem
  rw [NetworkState.startTask]
  split
  · grind
  · rename_i hqueue
    split
    · split <;> exact (hpop _ _ _ _ hqueue).congr rfl rfl
    · grind
  · grind
  · exact h

theorem Sound.finishTask (i : ℕ) (success : Bool) : Sound (w.finishTask i success) := by
  rw [NetworkState.finishTask]
  split
  · rw [connected]
    have hset : Sound (w.setSession i { (w.sessions i) with
        running := none
        socket := (w.sessions i).socket || success }) := h.setSession rfl rfl id
    split <;> split
    · exact hset.congr rfl rfl
    · exact hset
    · exact Sound.resetService (by exact hset.congr rfl rfl)
    · exact hset.resetService
  · rw [dispatched]
    have hset : Sound (w.setSession i { (w.sessions i) with running := none }) :=
      h.setSession rfl rfl id
    split
    · exact hset.congr rfl rfl
    · exact hset
  · exact h

theorem Sound.step (e : NetworkEvent) : Sound (networkStep w e) := by
  cases e with
  | open_ backend =>
    rw [networkStep]
    split
    · rw [NetworkState.open_]
      split
      · exact h
      · exact (Sound.createNewSession (by exact h.congr rfl rfl) backend).handleSuspend _ (by decide)
    · exact h
  | call =>
    rw [networkStep]
    split
    · rw [sendAndSuspend]
      split
      · exact h
      · exact Sound.handleSuspend (by exact h.congr rfl rfl) .handleRpc (by decide)
    · exact h
  | close =>
    rw [networkStep]
    split
    · rw [NetworkState.close]
      split
      · exact h
      · split
        · exact h.resetService.congr rfl rfl
        · exact h.congr rfl rfl
    · exact h
  | suspendOther =>
    rw [networkStep]
    split
    · exact h.congr rfl rfl
    · exact h
  | resumeOther =>
    rw [networkStep]
    split
    · exact h.congr rfl rfl
    · exact h
  | startTask i => exact h.startTask i
  | finishTask i success => exact h.finishTask i success
  | rpcResult i =>
    rw [networkStep, NetworkState.rpcResult]
    split
    · exact h.congr rfl rfl
    · exact h
  | unexpectedClose i =>
    rw [networkStep, NetworkState.unexpectedClose]
    have hset : Sound (w.setSession i { (w.sessions i) with socket := false }) :=
      h.setSession rfl rfl id
    split
    · split
      · exact hset.resetService
      · exact hset
    · exact h
  | resetService => exact h.resetService
  | resetProxy => exact h.resetProxy
  | resetEmulator => exact h.resetProxy.congr rfl rfl
  | disableRedirection => exact h.resetProxy.resetService

end

def Connects (s : NetworkSession) : Prop :=
  s.running = some .handleConnect ∨ .handleConnect ∈ s.queue

/-- The session will answer a remote call: the call has yet to be handled, or it was sent and
the backend is still open. -/
def Calls (s : NetworkSession) (sent : Bool) : Prop :=
  .handleRpc ∈ s.queue ∨ sent = true ∧ s.socket = true

/-- If the emulator is suspended for the network, a live session will end that. -/
def Answered (w : NetworkState) : Prop :=
  match w.suspend with
  | some .networkConnect =>
    ∃ i, w.session = some i ∧ (w.sessions i).cloudpilot = true ∧ Connects (w.sessions i)
  | some (.networkRpc sent) =>
    ∃ i, w.session = some i ∧ (w.sessions i).cloudpilot = true ∧ Calls (w.sessions i) sent
  | _ => True

theorem answered_of_not_networkSuspended (h : w.networkSuspended = false) : Answered w := by
  rw [Answered]
  cases hsuspend : w.suspend with
  | none => trivial
  | some kind =>
    rw [networkSuspended, hsuspend] at h
    cases kind with
    | other => trivial
    | networkConnect => cases h
    | networkRpc sent => exact absurd h (by simp [Suspend.isNetwork])

theorem answered_of_suspend_none (h : w.suspend = none) : Answered w :=
  answered_of_not_networkSuspended (by rw [networkSuspended, h]; rfl)

theorem answered_iff_of_session_none (h : w.session = none) :
    Answered w ↔ w.networkSuspended = false := by
  refine ⟨?_, answered_of_not_networkSuspended⟩
  intro ha
  rw [Answered] at ha
  rw [networkSuspended]
  cases hsuspend : w.suspend with
  | none => rfl
  | some kind =>
    cases kind with
    | other => rfl
    | networkConnect => grind
    | networkRpc sent => grind

structure StillAnswers (s s' : NetworkSession) : Prop where
  cloudpilot : s.cloudpilot = true → s'.cloudpilot = true
  connects : Connects s → Connects s'
  calls : ∀ sent, Calls s sent → Calls s' sent

theorem StillAnswers.refl (s : NetworkSession) : StillAnswers s s := ⟨id, id, fun _ => id⟩

theorem Answered.keep (h : Answered w) (hsuspend : w'.suspend = w.suspend)
    (hsession : w'.session = w.session)
    (hkeep : ∀ i, w.session = some i → StillAnswers (w.sessions i) (w'.sessions i)) :
    Answered w' := by
  rw [Answered] at h ⊢
  rw [hsuspend, hsession]
  cases hkind : w.suspend with
  | none => trivial
  | some kind =>
    rw [hkind] at h
    cases kind with
    | other => trivial
    | networkConnect =>
      obtain ⟨i, hi, hcloudpilot, hconnects⟩ := h
      have hk := hkeep i hi
      exact ⟨i, hi, hk.cloudpilot hcloudpilot, hk.connects hconnects⟩
    | networkRpc sent =>
      obtain ⟨i, hi, hcloudpilot, hcalls⟩ := h
      have hk := hkeep i hi
      exact ⟨i, hi, hk.cloudpilot hcloudpilot, hk.calls sent hcalls⟩

theorem Answered.setSession (h : Answered w)
    (hkeep : w.session = some i → StillAnswers (w.sessions i) s) : Answered (w.setSession i s) := by
  refine h.keep (by rfl) (by rfl) ?_
  intro k hk
  by_cases hki : k = i
  · grind [sessions_setSession_self]
  · rw [sessions_setSession_ne hki]
    exact .refl _

/-- The event does not take away the session of a suspension. -/
def Quiet (w : NetworkState) : NetworkEvent → Prop
  | .unexpectedClose i => (w.sessions i).socket = true → (w.sessions i).watched = true →
      w.networkSuspended = false
  | .resetService => w.networkSuspended = false
  | .disableRedirection => w.openCount = 0 → w.networkSuspended = false
  | .finishTask i false => (w.sessions i).running = some .handleConnect →
      w.networkSuspended = true →
        (w.sessions i).cloudpilot = true ∧ w.suspend = some .networkConnect
  | _ => True

theorem answered_handleConnect (h : Sound w) (hsuspend : w.suspend = some .networkConnect) :
    Answered (w.handleSuspend .handleConnect) := by
  rw [handleSuspend]
  cases hsession : w.session with
  | none => exact answered_of_suspend_none rfl
  | some i =>
    rw [Answered]
    simp only [suspend_setSession, hsuspend]
    refine ⟨i, hsession, ?_, ?_⟩
    · rw [sessions_setSession_self]
      exact (h.current i hsession).1
    · rw [sessions_setSession_self]
      exact .inr (mem_append_right _ (mem_singleton_self _))

theorem answered_handleRpc (h : Sound w) {sent : Bool} (hsuspend : w.suspend = some (.networkRpc sent)) :
    Answered (w.handleSuspend .handleRpc) := by
  rw [handleSuspend]
  cases hsession : w.session with
  | none => exact answered_of_suspend_none rfl
  | some i =>
    rw [Answered]
    simp only [suspend_setSession, hsuspend]
    refine ⟨i, hsession, ?_, ?_⟩
    · rw [sessions_setSession_self]
      exact (h.current i hsession).1
    · rw [sessions_setSession_self]
      exact .inl (mem_append_right _ (mem_singleton_self _))

theorem suspend_createNewSession (w : NetworkState) (backend : Bool) :
    (w.createNewSession backend).suspend = w.suspend := by
  cases backend with
  | false => exact suspend_resetService
  | true => exact suspend_resetService

theorem answered_resetProxy (h : Answered w) : Answered w.resetProxy := by
  rw [resetProxy]
  split
  · apply answered_of_not_networkSuspended
    by_cases hsuspended : w.networkSuspended = true
    · rw [if_pos hsuspended]
      rfl
    · rw [if_neg hsuspended]
      exact Bool.eq_false_iff.mpr hsuspended
  · exact h

theorem answered_startTask (h : Sound w) (ha : Answered w) (i : ℕ) : Answered (w.startTask i) := by
  rw [startTask]
  split
  · rename_i hrunning hqueue
    refine ha.setSession fun _ => ⟨id, fun _ => .inl rfl, ?_⟩
    intro sent hcalls
    refine hcalls.imp_left fun hmem => ?_
    rw [hqueue] at hmem
    exact (mem_cons.mp hmem).resolve_left (by decide)
  · rename_i queue hrunning hqueue
    have hconnects : Connects (w.sessions i) → ∀ running socket,
        Connects ⟨(w.sessions i).cloudpilot, (w.sessions i).watched, queue, running, socket⟩ := by
      intro hconnects running socket
      right
      rcases hconnects with hnow | hmem <;> grind
    split
    · rename_i hcall
      obtain ⟨hcloudpilot, -⟩ := Bool.and_eq_true_iff.mp hcall
      split
      · rename_i hsocket
        refine ⟨i, ?_, ?_, ?_⟩
        · by_contra hother
          rw [(h.others i hother).1] at hcloudpilot
          cases hcloudpilot
        · exact (congrArg NetworkSession.cloudpilot sessions_setSession_self).trans hcloudpilot
        · exact .inr ⟨rfl, (congrArg NetworkSession.socket sessions_setSession_self).trans hsocket⟩
      · exact answered_of_suspend_none rfl
    · rename_i hcall
      by_cases hrpc : w.rpcSuspended = true
      · refine ha.setSession fun hcurrent => absurd ?_ hcall
        rw [(h.current i hcurrent).1, hrpc]
        rfl
      · have hkind : ∀ sent, w.suspend ≠ some (.networkRpc sent) := by
          intro sent heq
          apply hrpc
          rw [rpcSuspended, heq]
          rfl
        rw [Answered] at ha ⊢
        rw [suspend_setSession]
        cases hsuspend : w.suspend with
        | none => trivial
        | some kind =>
          rw [hsuspend] at ha
          cases kind with
          | other => trivial
          | networkRpc sent => exact absurd hsuspend (hkind sent)
          | networkConnect =>
            obtain ⟨k, hk, hcloudpilot, hconn⟩ := ha
            refine ⟨k, hk, ?_⟩
            by_cases hki : k = i
            · grind [sessions_setSession_self]
            · rw [sessions_setSession_ne hki]
              exact ⟨hcloudpilot, hconn⟩
  · rename_i hrunning hqueue
    refine ha.setSession fun hcurrent => absurd ?_ (h.current i hcurrent).2.2
    rw [hqueue]
    exact mem_cons_self
  · exact ha

theorem answered_connected_true (h : Sound w) (ha : Answered w) (i : ℕ) :
    Answered (w.connected i true) := by
  rw [connected]
  simp only [if_true]
  split
  · exact answered_of_suspend_none rfl
  · rename_i hown
    by_cases hsuspend : w.suspend = some .networkConnect
    · refine ha.setSession fun hcurrent => absurd ?_ hown
      rw [(h.current i hcurrent).1, hsuspend]
      rfl
    · rw [Answered] at ha ⊢
      rw [suspend_setSession]
      cases hkind : w.suspend with
      | none => trivial
      | some kind =>
        rw [hkind] at ha
        cases kind with
        | other => trivial
        | networkConnect => exact absurd hkind hsuspend
        | networkRpc sent =>
          obtain ⟨k, hk, hcloudpilot, hcalls⟩ := ha
          refine ⟨k, hk, ?_⟩
          by_cases hki : k = i
          · subst hki
            rw [sessions_setSession_self]
            exact ⟨hcloudpilot, hcalls.imp_right fun hsent => ⟨hsent.1, by rw [hsent.2]; rfl⟩⟩
          · rw [sessions_setSession_ne hki]
            exact ⟨hcloudpilot, hcalls⟩

theorem answered_connected_false (w : NetworkState) (i : ℕ) :
    Answered (w.connected i false) ↔ (w.networkSuspended = true →
      (w.sessions i).cloudpilot = true ∧ w.suspend = some .networkConnect) := by
  rw [connected]
  simp only [Bool.false_eq_true, if_false]
  rw [answered_iff_of_session_none session_resetService, networkSuspended, suspend_resetService]
  split
  · grind
  · rename_i hown
    rw [suspend_setSession, ← networkSuspended]
    constructor <;> grind

theorem answered_dispatched (ha : Answered w) (i : ℕ) (success : Bool)
    (hrunning : (w.sessions i).running = some .handleRpc) : Answered (w.dispatched i success) := by
  rw [dispatched]
  split
  · exact answered_of_suspend_none rfl
  · refine ha.setSession fun _ => ⟨id, ?_, fun _ => id⟩
    intro hconnects
    rcases hconnects with hnow | hmem
    · grind
    · exact .inr hmem

theorem answered_unexpectedClose_iff (h : Sound w) (ha : Answered w) (i : ℕ) :
    Answered (w.unexpectedClose i) ↔ Quiet w (.unexpectedClose i) := by
  rw [unexpectedClose, Quiet]
  by_cases hsocket : (w.sessions i).socket = true
  · by_cases hwatched : (w.sessions i).watched = true
    · rw [if_pos hsocket, if_pos hwatched, answered_iff_of_session_none session_resetService,
        networkSuspended, suspend_resetService, suspend_setSession, ← networkSuspended]
      exact ⟨fun hnone _ _ => hnone, fun himp => himp hsocket hwatched⟩
    · rw [if_pos hsocket, if_neg hwatched]
      refine iff_of_true ?_ fun _ hw => absurd hw hwatched
      exact ha.setSession fun hcurrent => absurd (h.current i hcurrent).2.1 hwatched
  · grind

theorem answered_step_iff (h : Sound w) (ha : Answered w) (e : NetworkEvent) :
    Answered (networkStep w e) ↔ Quiet w e := by
  cases e with
  | open_ backend =>
    refine iff_of_true ?_ trivial
    rw [networkStep]
    split
    · rw [NetworkState.open_]
      split
      · exact ha
      · apply answered_handleConnect
        · exact Sound.createNewSession (by exact h.congr rfl rfl) backend
        · rw [suspend_createNewSession]
    · exact ha
  | call =>
    refine iff_of_true ?_ trivial
    rw [networkStep]
    split
    · rw [sendAndSuspend]
      split
      · exact ha
      · exact answered_handleRpc (by exact h.congr rfl rfl) rfl
    · exact ha
  | close =>
    refine iff_of_true ?_ trivial
    rw [networkStep]
    split
    · rename_i hnone
      rw [NetworkState.close]
      split
      · exact ha
      · split
        · apply answered_of_suspend_none
          exact suspend_resetService.trans hnone
        · exact answered_of_suspend_none hnone
    · exact ha
  | suspendOther =>
    refine iff_of_true ?_ trivial
    rw [networkStep]
    split
    · trivial
    · exact ha
  | resumeOther =>
    refine iff_of_true ?_ trivial
    rw [networkStep]
    split
    · trivial
    · exact ha
  | startTask i => exact iff_of_true (answered_startTask h ha i) trivial
  | finishTask i success =>
    rw [networkStep, finishTask]
    cases hrunning : (w.sessions i).running with
    | none => cases success <;> exact iff_of_true ha (by simp [Quiet, hrunning])
    | some task =>
      cases task with
      | disconnect => cases success <;> exact iff_of_true ha (by simp [Quiet, hrunning])
      | handleRpc =>
        have hdone := answered_dispatched ha i success hrunning
        cases success <;> exact iff_of_true hdone (by simp [Quiet, hrunning])
      | handleConnect =>
        cases success with
        | true => exact iff_of_true (answered_connected_true h ha i) trivial
        | false =>
          simp [answered_connected_false, Quiet, hrunning]
  | rpcResult i =>
    refine iff_of_true ?_ trivial
    rw [networkStep, rpcResult]
    split
    · trivial
    · exact ha
  | unexpectedClose i => exact answered_unexpectedClose_iff h ha i
  | resetService =>
    rw [networkStep, answered_iff_of_session_none session_resetService, networkSuspended,
      suspend_resetService]
    rfl
  | resetProxy => exact iff_of_true (answered_resetProxy ha) trivial
  | resetEmulator => exact iff_of_true trivial trivial
  | disableRedirection =>
    rw [networkStep, disableRedirection, answered_iff_of_session_none session_resetService,
      networkSuspended, suspend_resetService, ← networkSuspended, Quiet]
    have hproxy := answered_resetProxy ha
    by_cases hopen : w.openCount > 0
    · refine iff_of_true ?_ fun hzero => absurd hzero (Nat.pos_iff_ne_zero.mp hopen)
      have hsession : w.resetProxy.session = none := by
        rw [resetProxy, if_pos hopen]
        exact session_resetService
      exact (answered_iff_of_session_none hsession).mp hproxy
    · grind [resetProxy]

/-- Every suspension on the way is answered. -/
def AnsweredRun : NetworkState → List NetworkEvent → Prop
  | w, [] => Answered w
  | w, e :: es => Answered w ∧ AnsweredRun (networkStep w e) es

/-- No event on the way takes away the session of a suspension. -/
def QuietRun : NetworkState → List NetworkEvent → Prop
  | _, [] => True
  | w, e :: es => Quiet w e ∧ QuietRun (networkStep w e) es

theorem answeredRun_iff (h : Sound w) (ha : Answered w) (es : List NetworkEvent) :
    AnsweredRun w es ↔ QuietRun w es := by
  induction es generalizing w with
  | nil => exact iff_of_true ha trivial
  | cons e es ih =>
    rw [AnsweredRun, QuietRun, and_iff_right ha]
    constructor
    · intro hrun
      have hstep : Answered (networkStep w e) := by
        cases es with
        | nil => exact hrun
        | cons e' es => exact hrun.1
      exact ⟨(answered_step_iff h ha e).mp hstep, (ih (h.step e) hstep).mp hrun⟩
    · intro hquiet
      have hstep := (answered_step_iff h ha e).mpr hquiet.1
      exact (ih (h.step e) hstep).mpr hquiet.2

/-- A network suspension has someone to end it in every state that is reached, exactly when
the service never loses the session of a suspension. -/
theorem network_suspend_answered_iff (es : List NetworkEvent) :
    AnsweredRun initial es ↔ QuietRun initial es :=
  answeredRun_iff sound_initial (answered_of_suspend_none rfl) es

def connectionLost : List NetworkEvent :=
  [.open_ true, .startTask 0, .finishTask 0 true, .call, .startTask 0, .unexpectedClose 0]

/-- The emulator stays suspended for the call, and there is no session. -/
theorem connectionLost_not_answered :
    (connectionLost.foldl networkStep initial).suspend = some (.networkRpc true) ∧
    (connectionLost.foldl networkStep initial).session = none ∧
    ¬ AnsweredRun initial connectionLost := by
  have hsuspend : (connectionLost.foldl networkStep initial).suspend = some (.networkRpc true) := by
    rfl
  have hsession : (connectionLost.foldl networkStep initial).session = none := by decide +kernel
  refine ⟨hsuspend, hsession, ?_⟩
  intro hrun
  have hlast : Answered (connectionLost.foldl networkStep initial) := hrun.2.2.2.2.2.2
  have hnone := (answered_iff_of_session_none hsession).mp hlast
  cases hnone

end NetworkState

end Cloudpilot.Web
