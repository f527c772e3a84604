import Choreo.Daemon.Host

/-!
# The provider of an accepted request

A session keeps a provider next to the name of its account. The two agree with what the daemon holds
as long as the daemon does not change the provider of an account that a session thread relies on,
and no session thread gets a negative answer for a new account while it has a provider cached. In
the latter case the name changes and the provider of the previous account stays.
-/

namespace Choreo

open Option

namespace SessionThread

def reliesOn (t : SessionThread) : List String :=
  if t.system.live then
    (if t.system.loop.state.provider.isSome then t.system.loop.state.config.accountName.toList
      else []) ++
    (if t.answer.join.isSome then t.asking.toList else [])
  else []

def Cached (d : DaemonState) (t : SessionThread) : Prop :=
  ∀ provider, t.system.loop.state.provider = some provider →
    ∃ name, t.system.loop.state.config.accountName = some name ∧
      d.providers[name]? = some provider

/-- The providers that a running session thread holds are the daemon's: the cached one for the
account, and the one in an answer for the account that was asked about. -/
structure Agrees (d : DaemonState) (t : SessionThread) : Prop where
  cached : t.system.live = true → t.Cached d
  answered : ∀ provider, t.answer = some (some provider) →
    t.system.live = true ∧ ∃ name, t.asking = some name ∧ d.providers[name]? = some provider

theorem Agrees.of_daemon {d d' : DaemonState} {t : SessionThread} (hagrees : t.Agrees d)
    (hsame : ∀ name ∈ t.reliesOn, d'.providers[name]? = d.providers[name]?) : t.Agrees d' := by
  constructor
  · intro hlive provider hprovider
    obtain ⟨name, haccount, hd⟩ := hagrees.cached hlive provider hprovider
    refine ⟨name, haccount, ?_⟩
    rw [hsame name, hd]
    simp [reliesOn, hlive, hprovider, haccount]
  · intro provider hanswer
    obtain ⟨hlive, name, hasking, hd⟩ := hagrees.answered provider hanswer
    refine ⟨hlive, name, hasking, ?_⟩
    rw [hsame name, hd]
    simp [reliesOn, hlive, hanswer, hasking]

theorem cached_of_route {d : DaemonState} {t : SessionThread} {account : Option String}
    {provider : Option InferenceProvider} (hroute : t.system.loop.route = (account, provider))
    (h : ∀ p, provider = some p → ∃ name, account = some name ∧ d.providers[name]? = some p) :
    t.Cached d := by
  intro p hp
  have haccount : t.system.loop.state.config.accountName = account := congrArg Prod.fst hroute
  have hprovider : t.system.loop.state.provider = provider := congrArg Prod.snd hroute
  obtain ⟨name, hname, hd⟩ := h p (hprovider.symm.trans hp)
  exact ⟨name, haccount.trans hname, hd⟩

/-- Whether a command that asks the daemon would be handled with a negative answer while a provider
is cached. -/
def keepsOther (t : SessionThread) : Bool :=
  t.asking.isSome && t.answer.join.isNone && t.system.loop.state.provider.isSome

theorem cached_of_process {setup : AgentSetup} {env : CommandEnv} {d : DaemonState}
    {t t' : SessionThread} (hagrees : t.Agrees d) (hkeeps : t.keepsOther = false)
    (h : t.step setup (.process env) = some t') : t'.Cached d := by
  obtain ⟨hlive, -, hroute, -⟩ := step_process h
  cases hasking : t.asking with
  | none =>
    rw [hasking] at hroute
    exact cached_of_route hroute (hagrees.cached hlive)
  | some name =>
    rw [hasking] at hroute
    refine cached_of_route hroute fun p hp => ⟨name, rfl, ?_⟩
    cases hanswer : t.answer.join with
    | none =>
      rw [hanswer] at hp
      have hp : t.system.loop.state.provider = some p := hp
      simp [keepsOther, hasking, hanswer, hp] at hkeeps
    | some provider =>
      rw [hanswer] at hp
      cases hp
      obtain ⟨-, name', hasking', hd⟩ := hagrees.answered p (join_eq_some_iff.1 hanswer)
      rw [hasking] at hasking'
      cases hasking'
      exact hd

/-- A step of a session thread keeps the agreement. -/
theorem Agrees.step {setup : AgentSetup} {label : SystemLabel} {d : DaemonState}
    {t t' : SessionThread} (hagrees : t.Agrees d)
    (hkeeps : label.isProcess = true → t.keepsOther = false) (h : t.step setup label = some t') :
    t'.Agrees d := by
  cases hlabel : label.isProcess with
  | true =>
    cases label with
    | process env =>
      refine ⟨fun _ => cached_of_process hagrees (hkeeps rfl) h, fun provider hanswer => ?_⟩
      rw [(step_process h).2.1] at hanswer
      cases hanswer
    | _ => cases hlabel
  | false =>
    obtain ⟨hlive, hroute, hanswer, hasking⟩ := step_of_not_process hlabel h
    constructor
    · intro hlive'
      rw [hlive] at hlive'
      exact cached_of_route hroute (hagrees.cached hlive')
    · intro provider hanswer'
      rw [hanswer] at hanswer'
      obtain ⟨hlive', name, hname, hd⟩ := hagrees.answered provider hanswer'
      exact ⟨hlive.trans hlive', name, hasking name hname, hd⟩

end SessionThread

namespace Host

/-- The condition on the steps: the daemon changes no provider that a session thread holds, and no
session thread keeps a provider when it changes the account. -/
def steady (label : HostLabel) (h : Host) : Bool :=
  match label with
  | .daemon env command =>
    h.sessions.toList.all fun entry => entry.2.reliesOn.all fun name =>
      (h.daemon.handleCommand env command).1.providers[name]? = h.daemon.providers[name]?
  | .session id (.process _) => !(h.sessions[id]?.any SessionThread.keepsOther)
  | _ => true

def Agrees (h : Host) : Prop :=
  ∀ (id : ℕ) (t : SessionThread), h.sessions[id]? = some t → t.Agrees h.daemon

theorem agrees_init (env : DaemonEnv) (binding : Option Bytes)
    (blobs : Std.ExtTreeMap String Bytes) (stores : Std.ExtTreeMap ℕ Store) :
    (init env binding blobs stores).Agrees := by
  intro id t ht
  simp only [init, Std.ExtTreeMap.getElem?_map] at ht
  obtain ⟨store, -, rfl⟩ := map_eq_some_iff.1 ht
  exact ⟨fun h => (by cases h), fun _ h => (by cases h)⟩

theorem keepsOther_of_steady {id : ℕ} {slabel : SystemLabel} {h : Host} {t : SessionThread}
    (hsteady : steady (.session id slabel) h = true) (ht : h.sessions[id]? = some t)
    (hprocess : slabel.isProcess = true) : t.keepsOther = false := by
  cases slabel with
  | process env => simpa [steady, ht] using hsteady
  | _ => cases hprocess

/-- A step that meets the condition keeps the agreement. -/
theorem step_agrees {setup : AgentSetup} (label : HostLabel) (h h' : Host)
    (hsteady : steady label h = true) (hagrees : h.Agrees) (hstep : step setup label h = some h') :
    h'.Agrees := by
  intro id t' ht'
  rcases thread_cases hstep ht' with ⟨ht, hd | ⟨env, command, rfl, hd⟩⟩ | ⟨hd, hstarted⟩ |
    ⟨hd, t, name, ht, hasking, rfl⟩ | ⟨hd, t, slabel, rfl, ht, hthread⟩ | ⟨hlive, hanswer⟩
  · rw [hd]
    exact hagrees id t' ht
  · rw [hd]
    refine (hagrees id t' ht).of_daemon fun name hname => ?_
    have hall := List.all_eq_true.1 hsteady (id, t')
      (Std.ExtTreeMap.mem_toList_iff_getElem?_eq_some.2 ht)
    exact of_decide_eq_true (List.all_eq_true.1 hall name hname)
  · rw [hd]
    refine ⟨fun _ => SessionThread.cached_of_route hstarted.route fun p hp => ?_, fun p hp => ?_⟩
    · exact bind_eq_some_iff.1 hp
    · rw [hstarted.answer] at hp
      cases hp
  · rw [hd]
    refine ⟨fun hlive => (hagrees id t ht).cached hlive, fun provider hprovider => ⟨?_, name, ?_⟩⟩
    · cases hlive : t.system.live with
      | true => rfl
      | false =>
        simp only [SessionThread.asking, hlive] at hasking
        cases hasking
    · exact ⟨hasking, some.inj hprovider⟩
  · rw [hd]
    exact (hagrees id t ht).step (keepsOther_of_steady hsteady ht) hthread
  · refine ⟨fun h => ?_, fun p hp => ?_⟩
    · rw [hlive] at h
      cases h
    · rw [hanswer] at hp
      cases hp

/-- In every run whose steps meet the condition, a request that a session accepts uses the provider
that the daemon holds for the account of the session. -/
theorem accepted_provider {setup : AgentSetup} {denv : DaemonEnv} {binding : Option Bytes}
    {blobs : Std.ExtTreeMap String Bytes} {stores : Std.ExtTreeMap ℕ Store}
    {labels : List HostLabel} {id : ℕ} {env : CommandEnv} {h : Host} {t : SessionThread}
    {args : WorkerArgs}
    (hsteady : StepSystem.Along (step setup) (fun label h => steady label h = true)
      (labels ++ [.session id (.process env)]) (init denv binding blobs stores))
    (hrun : StepSystem.run (step setup) (labels ++ [.session id (.process env)])
      (init denv binding blobs stores) = some h)
    (ht : h.sessions[id]? = some t) (hargs : t.system.loop.spawned = some args) :
    ∃ name, t.system.loop.state.config.accountName = some name ∧
      h.daemon.providers[name]? = some args.client := by
  obtain ⟨h₀, hrun₀, hstep⟩ := StepSystem.run_concat_eq_some.1 hrun
  obtain ⟨hbefore, hlast⟩ := (StepSystem.along_append hrun₀).1 hsteady
  have hagrees : h₀.Agrees := StepSystem.invariant_of_along (G := fun label h => steady label h = true)
    (fun label h h' => step_agrees label h h') (agrees_init denv binding blobs stores) hbefore hrun₀
  have hlast : steady (.session id (.process env)) h₀ = true := hlast.1
  simp only [step] at hstep
  split at hstep
  · cases hstep
  · next t₀ ht₀ =>
    obtain ⟨t₁, hthread, rfl⟩ := map_eq_some_iff.1 hstep
    rw [get_setThread, if_pos rfl] at ht
    cases ht
    have hcached := SessionThread.cached_of_process (hagrees id t₀ ht₀)
      (keepsOther_of_steady hlast ht₀ rfl) hthread
    exact hcached args.client ((SessionThread.step_process hthread).2.2.2 args hargs)

def inputAfterUnlock : List HostLabel :=
  Sample.unlockAndAttach ++ [.session 1 (.send (.runInput 1 "hi"))]

theorem accepted_provider_inputAfterUnlock :
    ∃ h t args, StepSystem.run (step Sample.setup)
        (inputAfterUnlock ++ [.session 1 (.process Sample.env)]) Sample.host = some h ∧
      h.sessions[1]? = some t ∧ t.system.loop.spawned = some args ∧
      ∃ name, t.system.loop.state.config.accountName = some name ∧
        h.daemon.providers[name]? = some args.client := by
  have hrun : ((StepSystem.run (step Sample.setup)
      (inputAfterUnlock ++ [.session 1 (.process Sample.env)]) Sample.host).bind fun h =>
        h.sessions[1]?.bind fun t => t.system.loop.spawned).isSome = true := by
    decide +kernel
  obtain ⟨args, hargs⟩ := isSome_iff_exists.1 hrun
  obtain ⟨h, hrun, hargs⟩ := bind_eq_some_iff.1 hargs
  obtain ⟨t, ht, hargs⟩ := bind_eq_some_iff.1 hargs
  exact ⟨h, t, args, hrun, ht, hargs, accepted_provider (by decide +kernel) hrun ht hargs⟩

/-- The account is changed to one without a credential before the next input. -/
def inputAfterSetAccount : List HostLabel :=
  Sample.unlockAndAttach ++ [HostLabel.session 1 (.send (.setAccount "home")), .answer 1,
    .session 1 (.process Sample.env), .session 1 (.send (.runInput 1 "hi"))]

/-- The request is accepted with the provider of the previous account. -/
theorem accepted_previousProvider :
    ∃ h t args, StepSystem.run (step Sample.setup)
        (inputAfterSetAccount ++ [.session 1 (.process Sample.env)]) Sample.host = some h ∧
      h.sessions[1]? = some t ∧ t.system.loop.spawned = some args ∧
      t.system.loop.state.config.accountName = some "home" ∧
      h.daemon.providers["home"]? = none ∧
      h.daemon.providers["work"]? = some args.client := by
  have hrun : ((StepSystem.run (step Sample.setup)
      (inputAfterSetAccount ++ [.session 1 (.process Sample.env)]) Sample.host).bind fun h =>
        h.sessions[1]?.bind fun t => t.system.loop.spawned.map fun args =>
          decide (t.system.loop.state.config.accountName = some "home" ∧
            h.daemon.providers["home"]? = none ∧
            h.daemon.providers["work"]? = some args.client)) = some true := by
    decide +kernel
  obtain ⟨h, hrun, hargs⟩ := bind_eq_some_iff.1 hrun
  obtain ⟨t, ht, hargs⟩ := bind_eq_some_iff.1 hargs
  obtain ⟨args, hargs, hfacts⟩ := map_eq_some_iff.1 hargs
  exact ⟨h, t, args, hrun, ht, hargs, of_decide_eq_true hfacts⟩

end Host

end Choreo
