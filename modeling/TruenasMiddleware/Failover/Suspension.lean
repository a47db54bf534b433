import TruenasMiddleware.Foundation.Recorded
import TruenasMiddleware.Failover.Events

/-! `vrrp_master` and `vrrp_backup` of `plugins/failover_/event.py`: which calls they make, which of
them are inside a `try`, and which exits they take. Both pause the processing of VRRP events, and
`vrrp_master` suspends iSCSI logins and puts ALUA into the transitioning state. A call that raises
has no effect. -/

namespace TruenasMiddleware.Failover.Suspension

open Recorded Events Fallible List

/-- The calls that suspend something or undo it. The reboot of `vrrp_backup` is one of them: nothing
that the job has paused outlives it. -/
inductive Act
  | pauseEvents
  | unpauseEvents
  | suspendLogins
  | setAluaTransitioning
  | resumeLogins
  | setAluaActive
  | reboot
  deriving DecidableEq

/-- The calls of the jobs, each under the name of what it calls. -/
inductive Call
  | act (act : Act)
  -- both jobs
  | jbofConfigureJob
  | checkFailoverGroup
  | fencedStop
  | statusRefresh
  | systemdatasetSetup
  | generateCron
  | iscsitargetStartedOrEnabled
  | aluaEnabled
  | persistLinkAddresses
  -- `vrrp_master`
  | jbofWait (attempt : Nat)
  | fencedStart (attempt : Nat)
  | fencedStartForce
  | reloadKeepalived
  | generateUser
  | generatePam
  | sedUnlockAll
  | remoteConnected
  | remoteRetaste
  | alertInitialize
  | importPool (volume attempt : Nat)
  | handleUnencryptedDatasetsOnImport (volume : Nat)
  | unlockZfsDatasets (volume : Nat)
  | generateRc
  | restartCriticalServices
  | directoryservicesSetup
  | firewallAcceptAll
  | diskSyncAll
  | resetActive
  | restartServices
  | restartNetdata
  | updateTasks
  | blockFailoverAlerts
  | startTruecommandService
  | truesearchConfigure
  | discardUnboundRemoteRebootReasons
  | kmipConfig
  | kmipInitializeKeys
  | dockerConfig
  | dockerSetStatus
  | dockerStartService
  | consumeLocalDbReasons
  | rebootInfo
  -- `vrrp_backup`
  | stopNetdata
  | firewallDropAll
  | stopKeepalived
  | writeWatchdogAlert
  | exportZpools
  | enableSysrq
  | sendPwencSecret
  | unlinkWatchdogAlert
  | stopTruecommandService
  | queryServices
  | restartSsh
  | standbyWriteEmptyConfig
  | generateScst
  | isKernelModuleLoaded
  | restartIscsitarget
  | startIscsitarget
  | anaActive
  | nvmetStartedOrEnabled
  | nvmetRunning
  | reloadNvmet
  | startNvmet
  | stopNvmet
  | syncKeysToRemoteNode
  | startKeepalived
  | diskRetaste
  | activateStandby
  | stopServicesBackup
  deriving DecidableEq

/-- What a call raises: `TimeoutError`, an exception whose `errno` is `ENOENT` or another one, or an
exception that has no attribute `errno`. -/
inductive Raised
  | timeout
  | enoent
  | errno
  | other

/-- Why a job ends before its last call. `noPools` is an early `return`. -/
inductive Exit
  | raised (exception : Raised)
  | ignoreFailoverEvent
  | fencedError
  | noPools
  | allZpoolsFailedToImport
  | rebooted

/-- What a job is given, which of its calls raise, and what the others answer. -/
structure Env where
  event : Event
  /-- Length of `fobj['volumes']`. -/
  volumes : Nat
  raises : Call → Option Raised
  /-- The answer of a call that is asked a question. That of `checkFailoverGroup` is whether other
  interfaces of the group are still in the opposite state, that of `exportZpools` whether the
  thread is still alive after the timeout. -/
  answer : Call → Bool
  /-- Exit codes of `failover.fenced.start`. -/
  fenced : Call → Nat

variable (env : Env)

def Env.Returns (call : Call) : Prop := env.raises call = none

instance (call : Call) : Decidable (env.Returns call) :=
  inferInstanceAs (Decidable (env.raises call = none))

def Env.call (call : Call) : Except Exit Unit :=
  match env.raises call with
  | none => .ok ()
  | some exception => .error (.raised exception)

def Env.query (call : Call) : Except Exit Bool := do
  env.call call
  return env.answer call

def Env.calls (calls : List Call) : Except Exit Unit :=
  forM calls env.call

def suppressed (block : Except Exit Unit) : Except Exit Unit :=
  tryCatch block fun _ => pure ()

/-- `vrrpthread.pause_events` and the like, recorded where they return. -/
def Env.act (act : Act) : Run Exit Act Unit :=
  perform (env.call (.act act)) act

/-- "Attach NVMe/RoCE". Only a timeout is retried, and what is raised in its handler is not caught:
neither another exception of the second wait nor `jbof_job` unbound. -/
def attachJbofs : Except Exit Unit :=
  match env.raises .jbofConfigureJob, env.raises (.jbofWait 0), env.raises (.jbofWait 1) with
  | some .timeout, _, _ => throw (.raised .other)
  | none, some .timeout, some .timeout => pure ()
  | none, some .timeout, some exception => throw (.raised exception)
  | _, _, _ => pure ()

def fencedStartLoop : Nat → Nat → Except Exit Nat
  | 0, attempt => do
    env.call (.fencedStart attempt)
    return env.fenced (.fencedStart attempt)
  | retries + 1, attempt => do
    env.call (.fencedStart attempt)
    if env.fenced (.fencedStart attempt) = 2 then
      fencedStartLoop retries (attempt + 1)
    else
      return env.fenced (.fencedStart attempt)

def startFenced : Except Exit Nat :=
  match env.event with
  | .forcetakeover => do
    env.calls [.fencedStop, .fencedStartForce]
    return env.fenced .fencedStartForce
  | .master | .backup => do
    if ← env.query .checkFailoverGroup then throw .ignoreFailoverEvent
    env.call .fencedStop
    fencedStartLoop env 3 1

/-- `vrrp_master` up to "fenced is now running, so we *are* the ACTIVE/MASTER node". -/
def becomeActive : Except Exit Unit := do
  attachJbofs env
  let fencedError ← startFenced env
  if fencedError ≠ 0 then throw .fencedError

/-- From the end of the pause to `handle_alua`. -/
def verifyIscsi : Except Exit Bool := do
  suppressed (env.calls [.generateUser, .generatePam])
  if ← env.query .iscsitargetStartedOrEnabled then env.query .aluaEnabled else return false

def unlockSed : Except Exit Unit :=
  suppressed do
    if ← env.query .sedUnlockAll then
      suppressed do
        if ← env.query .remoteConnected then env.call .remoteRetaste

def openPool (volume : Nat) : Except Exit Bool := do
  env.calls [.handleUnencryptedDatasetsOnImport volume, .unlockZfsDatasets volume]
  return true

/-- One round of the import loop: whether the pool was imported. The handler asks for `e.errno`
without knowing that there is one. -/
def importPool (volume : Nat) : Except Exit Bool :=
  match env.raises (.importPool volume 0) with
  | none => openPool env volume
  | some .enoent =>
    match env.raises (.importPool volume 1) with
    | none => openPool env volume
    | some _ => pure false
  | some .other => throw (.raised .other)
  | some .timeout | some .errno => pure false

def importPools : List Nat → Except Exit (List Nat)
  | [] => return []
  | volume :: rest => do
    let imported ← importPool env volume
    let failed ← importPools rest
    return if imported then failed else volume :: failed

/-- The calls from the import of the pools to `handle_alua`. -/
def servingCalls : List Call :=
  [.statusRefresh, .generateRc, .systemdatasetSetup, .restartCriticalServices,
    .directoryservicesSetup, .firewallAcceptAll, .generateCron, .diskSyncAll]

/-- `vrrp_master` between `set_alua_transitioning` and `reset_active`. -/
def serve : Except Exit Unit := do
  if env.volumes = 0 then throw .noPools
  unlockSed env
  env.call .alertInitialize
  let failed ← importPools env (range env.volumes)
  if failed.length = env.volumes then throw .allZpoolsFailedToImport
  env.calls servingCalls

/-- The rest of `vrrp_master`. -/
def finishMaster : Except Exit Unit := do
  env.calls [.restartServices, .restartNetdata, .updateTasks, .blockFailoverAlerts,
    .startTruecommandService, .truesearchConfigure, .discardUnboundRemoteRebootReasons]
  if ← env.query .kmipConfig then env.call .kmipInitializeKeys
  if ← env.query .dockerConfig then suppressed (env.call .dockerStartService)
  else env.call .dockerSetStatus
  env.call .persistLinkAddresses
  suppressed (env.call .consumeLocalDbReasons)
  suppressed (env.call .rebootInfo)

def suspendIscsi (handleAlua : Bool) : Run Exit Act Unit := do
  if handleAlua then
    env.act .suspendLogins
    env.act .setAluaTransitioning

def resumeIscsi (handleAlua : Bool) : Run Exit Act Unit := do
  if handleAlua then
    attempt (suppressed (env.call .resetActive))
    env.act .resumeLogins
    env.act .setAluaActive

/-- `vrrp_master` after the pause. -/
def takeOver : Run Exit Act Unit := do
  let handleAlua ← attempt (verifyIscsi env)
  suspendIscsi env handleAlua
  attempt (serve env)
  resumeIscsi env handleAlua
  attempt (finishMaster env)

def vrrpMaster : Run Exit Act Unit := do
  attempt (becomeActive env)
  env.act .pauseEvents
  attempt (env.call .reloadKeepalived)
  env.act .unpauseEvents
  takeOver env

/-- `vrrp_backup` up to the pause. Its threads that stop apps, VMs and containers catch what they
raise. -/
def enterBackup : Except Exit Unit := do
  if ← env.query .checkFailoverGroup then throw .ignoreFailoverEvent
  env.calls [.stopNetdata, .firewallDropAll]

def releaseVips : Except Exit Unit := do
  env.call .stopKeepalived
  suppressed (env.call .writeWatchdogAlert)

/-- The pools were not exported in time: the magic SysRq key reboots the controller. -/
def rebootViolently (alive : Bool) : Run Exit Act Unit := do
  if alive then
    attempt (env.call .enableSysrq)
    env.act .reboot
    attempt (throw .rebooted)

def restartSsh : Except Exit Unit := do
  if ← env.query .queryServices then env.call .restartSsh

def startIscsiForAlua : Except Exit Unit := do
  if ← env.query .aluaEnabled then
    if ← env.query .iscsitargetStartedOrEnabled then
      env.calls [.standbyWriteEmptyConfig, .generateScst]
      if ← env.query .isKernelModuleLoaded then env.call .restartIscsitarget
      else env.call .startIscsitarget

def stopNvmet : Except Exit Unit := do
  if ← env.query .nvmetRunning then env.call .stopNvmet

def adjustNvmet : Except Exit Unit := do
  if ← env.query .anaActive then
    if ← env.query .nvmetStartedOrEnabled then
      if ← env.query .nvmetRunning then env.call .reloadNvmet else env.call .startNvmet
    else stopNvmet env
  else stopNvmet env

/-- `vrrp_backup` between the export of the pools and the end of the pause. -/
def demote : Except Exit Unit := do
  env.call .fencedStop
  suppressed (env.call .sendPwencSecret)
  suppressed (env.call .jbofConfigureJob)
  suppressed (env.call .unlinkWatchdogAlert)
  env.calls [.statusRefresh, .systemdatasetSetup, .generateCron, .stopTruecommandService]
  restartSsh env
  startIscsiForAlua env
  adjustNvmet env
  suppressed (env.call .syncKeysToRemoteNode)
  suppressed (env.call .persistLinkAddresses)
  env.call .startKeepalived

/-- The rest of `vrrp_backup`. -/
def finishBackup : Except Exit Unit := do
  env.call .diskRetaste
  suppressed (env.call .activateStandby)
  suppressed (env.call .stopServicesBackup)

def vrrpBackup : Run Exit Act Unit := do
  attempt (enterBackup env)
  env.act .pauseEvents
  attempt (releaseVips env)
  rebootViolently env (env.answer .exportZpools)
  attempt (demote env)
  env.act .unpauseEvents
  attempt (finishBackup env)

structure Left where
  paused : Bool := false
  loginsSuspended : Bool := false
  transitioning : Bool := false

def Left.act (left : Left) : Act → Left
  | .pauseEvents => { left with paused := true }
  | .unpauseEvents => { left with paused := false }
  | .suspendLogins => { left with loginsSuspended := true }
  | .setAluaTransitioning => { left with transitioning := true }
  | .resumeLogins => { left with loginsSuspended := false }
  | .setAluaActive => { left with transitioning := false }
  | .reboot => {}

def left (record : List Act) : Left :=
  record.foldl Left.act {}

/-- The processing of events is not left paused, and if the job suspended logins and put ALUA into
the transitioning state, both are undone. -/
def Undone (record : List Act) : Prop :=
  (left record).paused = false ∧ (.suspendLogins ∈ record ∧ .setAluaTransitioning ∈ record →
      (left record).loginsSuspended = false ∧ (left record).transitioning = false)

instance (record : List Act) : Decidable (Undone record) :=
  inferInstanceAs (Decidable (_ ∧ (_ → _)))

/-- Nothing ends `vrrp_master` between `set_alua_transitioning` and the calls that undo it: there is
a pool, one at least is imported, and every call outside a `try` returns. -/
structure Serves : Prop where
  pools : env.volumes ≠ 0
  alerts : env.Returns .alertInitialize
  opened : ∀ volume < env.volumes, ∃ imported, importPool env volume = .ok imported
  imported : ∃ volume < env.volumes, importPool env volume = .ok true
  services : ∀ call ∈ servingCalls, env.Returns call

/-- What `vrrp_master` suspends after the pause it also resumes. -/
def LoginsResume : Prop :=
  verifyIscsi env = .ok true → env.Returns (.act .suspendLogins) →
    env.Returns (.act .setAluaTransitioning) →
    Serves env ∧ env.Returns (.act .resumeLogins) ∧ env.Returns (.act .setAluaActive)

def MasterUndoes : Prop :=
  becomeActive env = .ok () → env.Returns (.act .pauseEvents) →
    (env.Returns .reloadKeepalived ∧ env.Returns (.act .unpauseEvents)) ∧ LoginsResume env

def iscsiCalls : List Call :=
  if env.answer .aluaEnabled then
    if env.answer .iscsitargetStartedOrEnabled then
      [.aluaEnabled, .iscsitargetStartedOrEnabled, .standbyWriteEmptyConfig, .generateScst,
        .isKernelModuleLoaded,
        if env.answer .isKernelModuleLoaded then .restartIscsitarget else .startIscsitarget]
    else [.aluaEnabled, .iscsitargetStartedOrEnabled]
  else [.aluaEnabled]

def nvmetStopCalls : List Call :=
  if env.answer .nvmetRunning then [.nvmetRunning, .stopNvmet] else [.nvmetRunning]

def nvmetCalls : List Call :=
  if env.answer .anaActive then
    if env.answer .nvmetStartedOrEnabled then
      [.anaActive, .nvmetStartedOrEnabled, .nvmetRunning,
        if env.answer .nvmetRunning then .reloadNvmet else .startNvmet]
    else .anaActive :: .nvmetStartedOrEnabled :: nvmetStopCalls env
  else .anaActive :: nvmetStopCalls env

/-- The calls of `vrrp_backup` outside a `try` between the export of the pools and the end of the
pause. -/
def demotionCalls : List Call :=
  [.fencedStop, .statusRefresh, .systemdatasetSetup, .generateCron, .stopTruecommandService,
    .queryServices] ++ (if env.answer .queryServices then [.restartSsh] else []) ++
    iscsiCalls env ++ nvmetCalls env ++ [.startKeepalived]

def BackupUndoes : Prop :=
  enterBackup env = .ok () → env.Returns (.act .pauseEvents) → env.Returns .stopKeepalived ∧
      if env.answer .exportZpools then env.Returns .enableSysrq ∧ env.Returns (.act .reboot)
      else (∀ call ∈ demotionCalls env, env.Returns call) ∧ env.Returns (.act .unpauseEvents)

variable {env}

theorem call_eq_ok {call : Call} : env.call call = .ok () ↔ env.Returns call := by
  unfold Env.call Env.Returns
  cases env.raises call <;> simp

theorem query_eq_ok {call : Call} {answer : Bool} :
    env.query call = .ok answer ↔ env.Returns call ∧ env.answer call = answer := by
  rw [Env.query, bind_unit_eq_ok, call_eq_ok]
  simp [pure, Except.pure]

theorem calls_eq_ok {calls : List Call} :
    env.calls calls = .ok () ↔ ∀ call ∈ calls, env.Returns call := by
  rw [Env.calls, forM_eq_ok]
  simp only [call_eq_ok]

theorem suppressed_eq_ok (block : Except Exit Unit) : suppressed block = .ok () := by
  cases block <;> rfl

theorem query_bind_eq_ok {call : Call} {f : Bool → Except Exit Unit} :
    (env.query call >>= f) = .ok () ↔ env.Returns call ∧ f (env.answer call) = .ok () := by
  rw [bind_eq_ok]
  simp only [query_eq_ok]
  exact ⟨fun ⟨_, ⟨returns, rfl⟩, rest⟩ => ⟨returns, rest⟩,
    fun ⟨returns, rest⟩ => ⟨_, ⟨returns, rfl⟩, rest⟩⟩

def importFails (env : Env) (volume : Nat) : Bool :=
  match importPool env volume with
  | .ok true => false
  | _ => true

theorem importFails_of_ok {volume : Nat} {imported : Bool}
    (returns : importPool env volume = .ok imported) : importFails env volume = !imported := by
  unfold importFails
  rw [returns]
  cases imported <;> rfl

theorem importPools_eq_ok {volumes failed : List Nat} : importPools env volumes = .ok failed ↔
      (∀ volume ∈ volumes, ∃ imported, importPool env volume = .ok imported) ∧
        volumes.filter (importFails env) = failed := by
  induction volumes generalizing failed with
  | nil => simp [importPools, pure, Except.pure]
  | cons volume rest ih =>
    rw [importPools, bind_eq_ok]
    simp only [bind_eq_ok, ih, forall_mem_cons, filter_cons]
    constructor
    · rintro ⟨imported, first, _, ⟨others, rfl⟩, eq⟩
      refine ⟨⟨⟨imported, first⟩, others⟩, ?_⟩
      rw [← Except.ok.inj eq, importFails_of_ok first]
      cases imported <;> rfl
    · rintro ⟨⟨⟨imported, first⟩, others⟩, rfl⟩
      refine ⟨imported, first, _, ⟨others, rfl⟩, ?_⟩
      rw [importFails_of_ok first]
      cases imported <;> rfl

theorem length_failed_eq {volumes : Nat}
    (opened : ∀ volume < volumes, ∃ imported, importPool env volume = .ok imported) :
    ((range volumes).filter (importFails env)).length = volumes ↔
      ¬∃ volume < volumes, importPool env volume = .ok true := by
  have whole := length_filter_eq_length_iff (p := importFails env) (l := range volumes)
  rw [length_range] at whole
  rw [whole]
  simp only [mem_range]
  constructor
  · rintro fails ⟨volume, below, imported⟩
    have := fails volume below
    rw [importFails_of_ok imported] at this
    cases this
  · intro absent volume below
    obtain ⟨imported, returns⟩ := opened volume below
    cases imported with
    | false => exact importFails_of_ok returns
    | true => exact absurd ⟨volume, below, returns⟩ absent

theorem serve_eq_ok : serve env = .ok () ↔ Serves env := by
  unfold serve
  by_cases pools : env.volumes = 0
  · rw [if_pos pools]
    constructor
    · intro returned
      cases returned
    · intro serves
      exact absurd pools serves.pools
  · rw [if_neg pools, bind_unit_eq_ok, bind_unit_eq_ok, bind_eq_ok, call_eq_ok]
    simp only [unlockSed, suppressed_eq_ok, importPools_eq_ok, mem_range, true_and]
    constructor
    · rintro ⟨alerts, _, ⟨opened, rfl⟩, rest⟩
      by_cases none : ((range env.volumes).filter (importFails env)).length = env.volumes
      · rw [if_pos none] at rest
        cases rest
      · rw [if_neg none] at rest
        have imported := not_not.mp (mt (length_failed_eq opened).mpr none)
        exact ⟨pools, alerts, opened, imported, calls_eq_ok.mp rest⟩
    · intro serves
      refine ⟨serves.alerts, _, ⟨serves.opened, rfl⟩, ?_⟩
      rw [if_neg fun none => (length_failed_eq serves.opened).mp none serves.imported]
      exact calls_eq_ok.mpr serves.services

theorem startIscsiForAlua_eq_ok :
    startIscsiForAlua env = .ok () ↔ ∀ call ∈ iscsiCalls env, env.Returns call := by
  unfold startIscsiForAlua iscsiCalls
  rw [query_bind_eq_ok]
  cases env.answer .aluaEnabled with
  | false => simp [pure, Except.pure]
  | true =>
    simp only [↓reduceIte]
    rw [query_bind_eq_ok]
    cases env.answer .iscsitargetStartedOrEnabled with
    | false => simp [pure, Except.pure]
    | true =>
      simp only [↓reduceIte]
      rw [bind_unit_eq_ok, query_bind_eq_ok]
      cases env.answer .isKernelModuleLoaded <;> simp [call_eq_ok, calls_eq_ok, and_assoc]

theorem stopNvmet_eq_ok :
    stopNvmet env = .ok () ↔ ∀ call ∈ nvmetStopCalls env, env.Returns call := by
  unfold stopNvmet nvmetStopCalls
  rw [query_bind_eq_ok]
  cases env.answer .nvmetRunning <;> simp [call_eq_ok, pure, Except.pure]

theorem adjustNvmet_eq_ok :
    adjustNvmet env = .ok () ↔ ∀ call ∈ nvmetCalls env, env.Returns call := by
  unfold adjustNvmet nvmetCalls
  rw [query_bind_eq_ok]
  cases env.answer .anaActive with
  | false => simp [stopNvmet_eq_ok]
  | true =>
    simp only [↓reduceIte]
    rw [query_bind_eq_ok]
    cases env.answer .nvmetStartedOrEnabled with
    | false => simp [stopNvmet_eq_ok]
    | true =>
      simp only [↓reduceIte]
      rw [query_bind_eq_ok]
      cases env.answer .nvmetRunning <;> simp [call_eq_ok]

theorem demote_eq_ok : demote env = .ok () ↔ ∀ call ∈ demotionCalls env, env.Returns call := by
  have ssh : restartSsh env = .ok () ↔ env.Returns .queryServices ∧
      ∀ call ∈ if env.answer .queryServices then [Call.restartSsh] else [], env.Returns call := by
    rw [restartSsh, query_bind_eq_ok]
    cases env.answer .queryServices <;> simp [call_eq_ok, pure, Except.pure]
  unfold demote demotionCalls
  simp only [bind_unit_eq_ok, call_eq_ok, calls_eq_ok, suppressed_eq_ok, ssh,
    startIscsiForAlua_eq_ok, adjustNvmet_eq_ok, forall_mem_append, forall_mem_cons]
  tauto

section Rules

variable {act : Act} {record : List Act} {f : Unit → Run Exit Act Unit} {x : Except Exit Unit}

theorem undone_act (undone : Undone record) : Undone (recordAfter (env.act act >>= f) record) ↔
      (env.Returns (.act act) → Undone (recordAfter (f ()) (record ++ [act]))) := by
  rw [← call_eq_ok]
  exact perform_bind_iff_of_good undone

theorem undone_act_of_not (suspended : ¬Undone record) :
    Undone (recordAfter (env.act act >>= f) record) ↔
      env.Returns (.act act) ∧ Undone (recordAfter (f ()) (record ++ [act])) := by
  rw [← call_eq_ok]
  exact perform_bind_iff_of_bad suspended

theorem undone_attempt (undone : Undone record) : Undone (recordAfter (attempt x >>= f) record) ↔
      (x = .ok () → Undone (recordAfter (f ()) record)) :=
  (attempt_bind_iff_of_good undone).trans ⟨fun after => after (), fun after _ => after⟩

theorem undone_attempt_of_not (suspended : ¬Undone record) :
    Undone (recordAfter (attempt x >>= f) record) ↔
      x = .ok () ∧ Undone (recordAfter (f ()) record) :=
  (attempt_bind_iff_of_bad suspended).trans ⟨fun ⟨_, after⟩ => after, fun after => ⟨(), after⟩⟩

end Rules

theorem takeOver_iff :
    Undone (recordAfter (takeOver env) [.pauseEvents, .unpauseEvents]) ↔ LoginsResume env := by
  have passive : Undone (recordAfter (do
      suspendIscsi env false
      attempt (serve env)
      resumeIscsi env false
      attempt (finishMaster env)) [.pauseEvents, .unpauseEvents]) := by
    simp only [suspendIscsi, resumeIscsi, Bool.false_eq_true, ↓reduceIte, pure_bind]
    rw [undone_attempt (by decide), recordAfter_attempt]
    exact fun _ => by decide
  rw [takeOver, attempt_bind_iff_of_good (Q := Undone) (by decide), Bool.forall_bool,
    and_iff_right fun _ => passive, LoginsResume]
  refine imp_congr_right fun _ => ?_
  simp only [suspendIscsi, resumeIscsi, ↓reduceIte, bind_assoc]
  rw [undone_act (by decide), undone_act (by decide), undone_attempt_of_not (by decide),
    undone_attempt_of_not (by decide), undone_act_of_not (by decide), undone_act_of_not (by decide),
    recordAfter_attempt, serve_eq_ok, and_iff_right (suppressed_eq_ok _),
    and_iff_left (b := Undone _) (by decide)]

theorem vrrpMaster_iff : Undone (recordAfter (vrrpMaster env) []) ↔ MasterUndoes env := by
  rw [vrrpMaster, undone_attempt (by decide), undone_act (by decide),
    undone_attempt_of_not (by decide), undone_act_of_not (by decide), MasterUndoes, call_eq_ok,
    and_assoc]
  exact imp_congr_right fun _ => imp_congr_right fun _ =>
    and_congr_right fun _ => and_congr_right fun _ => takeOver_iff

theorem releaseVips_eq_ok : releaseVips env = .ok () ↔ env.Returns .stopKeepalived := by
  rw [releaseVips, bind_unit_eq_ok, call_eq_ok, and_iff_left (suppressed_eq_ok _)]

theorem vrrpBackup_iff : Undone (recordAfter (vrrpBackup env) []) ↔ BackupUndoes env := by
  rw [vrrpBackup, undone_attempt (by decide), undone_act (by decide),
    undone_attempt_of_not (by decide), releaseVips_eq_ok, BackupUndoes]
  refine imp_congr_right fun _ => imp_congr_right fun _ => and_congr_right fun _ => ?_
  cases env.answer .exportZpools with
  | true =>
    simp only [rebootViolently, ↓reduceIte, bind_assoc]
    rw [undone_attempt_of_not (by decide), call_eq_ok, undone_act_of_not (by decide),
      undone_attempt (by decide), and_iff_left (b := _ → _) fun rebooted => by cases rebooted]
  | false =>
    simp only [rebootViolently, Bool.false_eq_true, ↓reduceIte, pure_bind]
    rw [undone_attempt_of_not (by decide), demote_eq_ok, undone_act_of_not (by decide),
      recordAfter_attempt, and_iff_left (b := Undone _) (by decide)]

/-- When the jobs undo what they suspend. For the pause, every call up to the end of it has to
return; it is short in `vrrp_master`, and in `vrrp_backup` it spans the whole demotion, unless the
controller reboots. For the logins, the pools have to be imported and the services restarted. -/
theorem undone_iff (env : Env) : (Undone (recordAfter (vrrpMaster env) []) ↔ MasterUndoes env) ∧
      (Undone (recordAfter (vrrpBackup env) []) ↔ BackupUndoes env) :=
  ⟨vrrpMaster_iff, vrrpBackup_iff⟩

section Example

def calm : Env where
  event := .master
  volumes := 1
  raises _ := none
  answer call := call = .iscsitargetStartedOrEnabled ∨ call = .aluaEnabled
  fenced _ := 0

def raising (call : Call) : Env :=
  { calm with raises := fun other => if other = call then some .errno else none }

example : recordAfter (vrrpMaster calm) [] =
    [.pauseEvents, .unpauseEvents, .suspendLogins, .setAluaTransitioning, .resumeLogins,
      .setAluaActive] := by
  decide

/-- Events stay paused where the reload of keepalived raises, or in `vrrp_backup` the refresh of the
failover status. Logins stay suspended where there is no pool, where no pool is imported, and where
one of the calls in between raises. -/
theorem suspension_left : ¬Undone (recordAfter (vrrpMaster (raising .reloadKeepalived)) []) ∧
      ¬Undone (recordAfter (vrrpBackup (raising .statusRefresh)) []) ∧
      ¬Undone (recordAfter (vrrpMaster { calm with volumes := 0 }) []) ∧
      ¬Undone (recordAfter (vrrpMaster (raising (.importPool 0 0))) []) ∧
      ¬Undone (recordAfter (vrrpMaster (raising .systemdatasetSetup)) []) := by
  decide

end Example

end TruenasMiddleware.Failover.Suspension
