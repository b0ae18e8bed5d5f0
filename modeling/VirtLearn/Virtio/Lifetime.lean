import VirtLearn.Virtio.Driver

/-!
# The lifetime of the device object

`virtio_custom_init` allocates one `virtio_custom_device`, which is the virtio device, the state of
its driver and, as `vdev->priv`, the driver's private data. The functions of `virtio_custdev.c`
that run while the module is loaded and unloaded are given here with what they do to that object:
every use of it, and every `kfree`.

The virtio core is not part of the source. What it decides is an argument (`Outcomes`), and so is
what it does to the device on the way, which it can do only through the config operations of the
device (`VirtioCore`). A driver that fails to register has not been bound to any device.
-/

namespace VirtLearn.Virtio

/-- A call of the virtio core through `virtio_custdev_config_ops`. -/
inductive ConfigCall where
  | getStatus
  | setStatus (status : BitVec 8)
  | reset
deriving DecidableEq

/-- The config operations that the virtio core calls at each point of the life of a device. -/
structure VirtioCore where
  onRegister : List ConfigCall := []
  beforeProbe : List ConfigCall := []
  afterProbe : List ConfigCall := []
  afterFailedProbe : List ConfigCall := []
  afterRemove : List ConfigCall := []
  onUnregister : List ConfigCall := []
deriving DecidableEq

/-- What `kzalloc` and the kernel functions called for the module answer; 0 is success. -/
structure Outcomes where
  allocated : Bool := true
  registerVirtioDevice : ℤ := 0
  registerVirtioDriver : ℤ := 0
  virtioFindVqs : ℤ := 0
  procCreated : Bool := true
deriving DecidableEq

def Outcomes.Probes (outcomes : Outcomes) : Prop :=
  outcomes.virtioFindVqs = 0 ∧ outcomes.procCreated = true

/--
The module, with the object behind `vcdev`: its `status`, whether `vdev.priv` points to the object
itself, how often it has been freed and whether it was used after that.
-/
structure CustomModule where
  vcdev : Bool := false
  bound : Bool := false
  loaded : Bool := false
  status : BitVec 8 := 0#8
  priv : Bool := false
  frees : ℕ := 0
  usedAfterFree : Bool := false
deriving DecidableEq

namespace CustomModule

def use (custom : CustomModule) : CustomModule :=
  { custom with usedAfterFree := custom.usedAfterFree || decide (0 < custom.frees) }

def kfree (custom : CustomModule) : CustomModule :=
  { custom with frees := custom.frees + 1 }

def custdevGetStatus (custom : CustomModule) : BitVec 8 × CustomModule :=
  (custom.status, custom.use)

def custdevSetStatus (custom : CustomModule) (status : BitVec 8) : CustomModule :=
  { custom.use with status := status }

def custdevReset (custom : CustomModule) : CustomModule :=
  { custom.use with status := 0 }

def config (custom : CustomModule) : ConfigCall → CustomModule
  | .getStatus => custom.custdevGetStatus.2
  | .setStatus status => custom.custdevSetStatus status
  | .reset => custom.custdevReset

def configs (custom : CustomModule) (calls : List ConfigCall) : CustomModule :=
  calls.foldl config custom

def virtioVcustAssignVirtqueue (outcomes : Outcomes) (custom : CustomModule) :
    ℤ × CustomModule :=
  let custom := custom.use
  if outcomes.virtioFindVqs ≠ 0 then (outcomes.virtioFindVqs, custom)
  else
    -- `vq_tx` and `vq_rx` are assigned
    (0, custom.use)

def virtioCustdevProbe (outcomes : Outcomes) (custom : CustomModule) : ℤ × CustomModule :=
  let custom := { custom.use with priv := true }
  let (err, custom) := virtioVcustAssignVirtqueue outcomes custom
  if err ≠ 0 then (err, custom.kfree)
  else
    -- `buffers`, `data_ready` and `pde` are assigned
    let custom := custom.use
    if !outcomes.procCreated then (-enomem, custom.kfree)
    else (0, custom)

/-- `virtio_custdev_remove`, which frees what `vdev->priv` points to. -/
def virtioCustdevRemove (custom : CustomModule) : CustomModule :=
  let custom := custom.use
  if custom.priv then custom.kfree else custom

/-- `register_virtio_device` for the device of the module. -/
def registerVirtioDevice (core : VirtioCore) (outcomes : Outcomes) (custom : CustomModule) :
    ℤ × CustomModule :=
  (outcomes.registerVirtioDevice, custom.use.configs core.onRegister)

/-- `unregister_virtio_device` for the device of the module. -/
def unregisterVirtioDevice (core : VirtioCore) (custom : CustomModule) : CustomModule :=
  custom.use.configs core.onUnregister

/-- `register_virtio_driver`: the driver is probed, and an error of the probe is not reported. -/
def registerVirtioDriver (core : VirtioCore) (outcomes : Outcomes) (custom : CustomModule) :
    ℤ × CustomModule :=
  if outcomes.registerVirtioDriver ≠ 0 then (outcomes.registerVirtioDriver, custom)
  else
    let (err, custom) := virtioCustdevProbe outcomes (custom.configs core.beforeProbe)
    if err ≠ 0 then (0, custom.configs core.afterFailedProbe)
    else (0, { custom.configs core.afterProbe with bound := true })

/-- `unregister_virtio_driver`: a bound device is removed. -/
def unregisterVirtioDriver (core : VirtioCore) (custom : CustomModule) : CustomModule :=
  if custom.bound then
    { custom.virtioCustdevRemove.configs core.afterRemove with bound := false }
  else custom

/-- `virtio_custom_init` after `kzalloc`, with its error and its labels `err` and `nodev`. -/
def virtioCustomInit (core : VirtioCore) (outcomes : Outcomes) (custom : CustomModule) :
    ℤ × CustomModule :=
  let custom := { custom with vcdev := outcomes.allocated }
  if !custom.vcdev then (-enomem, custom)
  else
    let custom := custom.use
    let (error, custom) := registerVirtioDevice core outcomes custom
    if error ≠ 0 then (error, custom.kfree)
    else
      let (error, custom) := registerVirtioDriver core outcomes custom
      if error ≠ 0 then (error, (custom.unregisterVirtioDevice core).kfree)
      else (0, custom)

def virtioCustomExit (core : VirtioCore) (custom : CustomModule) : CustomModule :=
  ((custom.unregisterVirtioDriver core).unregisterVirtioDevice core).kfree

/-- Load the module, and unload it again if it was loaded and `unload` says so. -/
def loadUnload (core : VirtioCore) (outcomes : Outcomes) (unload : Bool) : CustomModule :=
  let (error, custom) := virtioCustomInit core outcomes {}
  let custom := { custom with loaded := decide (error = 0) }
  if custom.loaded && unload then { custom.virtioCustomExit core with loaded := false }
  else custom

/-- The object is freed once, or kept by the loaded module, and never used once it is freed. -/
def Sound (custom : CustomModule) : Prop :=
  (custom.vcdev = true → custom.frees = 1 ∨ custom.frees = 0 ∧ custom.loaded = true) ∧
    custom.usedAfterFree = false

/-! ### What each function does to the object -/

section Effects

variable (core : VirtioCore) (outcomes : Outcomes) (custom : CustomModule) (calls : List ConfigCall)

/-- Config operations change the status and are uses of the object. -/
theorem configs_eq : ∃ status, custom.configs calls =
    { custom with
      status := status
      usedAfterFree :=
        custom.usedAfterFree || (!calls.isEmpty && decide (0 < custom.frees)) } := by
  induction calls generalizing custom with
  | nil => exact ⟨custom.status, by simp [configs]⟩
  | cons call calls ih =>
      rcases ih (custom.config call) with ⟨status, same⟩
      refine ⟨status, ?_⟩
      rw [configs, List.foldl_cons, ← configs, same]
      cases call <;> simp [config, custdevGetStatus, custdevSetStatus, custdevReset, use] <;>
        grind

@[simp]
theorem vcdev_configs : (custom.configs calls).vcdev = custom.vcdev := by
  rcases custom.configs_eq calls with ⟨status, same⟩
  rw [same]

@[simp]
theorem bound_configs : (custom.configs calls).bound = custom.bound := by
  rcases custom.configs_eq calls with ⟨status, same⟩
  rw [same]

@[simp]
theorem priv_configs : (custom.configs calls).priv = custom.priv := by
  rcases custom.configs_eq calls with ⟨status, same⟩
  rw [same]

@[simp]
theorem frees_configs : (custom.configs calls).frees = custom.frees := by
  rcases custom.configs_eq calls with ⟨status, same⟩
  rw [same]

@[simp]
theorem usedAfterFree_configs : (custom.configs calls).usedAfterFree =
    (custom.usedAfterFree || (!calls.isEmpty && decide (0 < custom.frees))) := by
  rcases custom.configs_eq calls with ⟨status, same⟩
  rw [same]

/-- The object is allocated, and neither freed nor misused so far. -/
structure Live : Prop where
  vcdev : custom.vcdev = true
  frees : custom.frees = 0
  usedAfterFree : custom.usedAfterFree = false

variable {custom outcomes}

theorem Live.use (live : custom.Live) : custom.use.Live where
  vcdev := live.vcdev
  frees := live.frees
  usedAfterFree := by simp [CustomModule.use, live.frees, live.usedAfterFree]

theorem Live.configs (live : custom.Live) : (custom.configs calls).Live where
  vcdev := by simp [live.vcdev]
  frees := by simp [live.frees]
  usedAfterFree := by simp [live.frees, live.usedAfterFree]

theorem Live.setPriv (live : custom.Live) : { custom with priv := true }.Live :=
  ⟨live.vcdev, live.frees, live.usedAfterFree⟩

/-- A live object that is freed now is freed properly. -/
theorem Live.sound_kfree (live : custom.Live) (loaded : Bool) :
    { custom.kfree with loaded := loaded }.Sound := by
  refine ⟨fun _ => Or.inl ?_, live.usedAfterFree⟩
  simp [kfree, live.frees]

/-- A probe that succeeds keeps the object and makes it the private data of the device. -/
theorem Live.probe_of_probes (live : custom.Live) (probes : outcomes.Probes) :
    ∃ after, virtioCustdevProbe outcomes custom = (0, after) ∧ after.Live ∧
      after.priv = true := by
  rcases probes with ⟨queues, entry⟩
  refine ⟨{ custom.use with priv := true }.use.use.use, ?_, ?_, rfl⟩
  · simp [virtioCustdevProbe, virtioVcustAssignVirtqueue, queues, entry]
  · exact live.use.setPriv.use.use.use

theorem Live.probe_of_fails (live : custom.Live) (fails : ¬outcomes.Probes) :
    ∃ err, ∃ last : CustomModule, virtioCustdevProbe outcomes custom = (err, last.kfree) ∧
      err ≠ 0 ∧ last.Live ∧ last.bound = custom.bound := by
  by_cases queues : outcomes.virtioFindVqs = 0
  · have entry : outcomes.procCreated = false := by simpa [Outcomes.Probes, queues] using fails
    refine ⟨-enomem, { custom.use with priv := true }.use.use.use, ?_, by decide, ?_, rfl⟩
    · simp [virtioCustdevProbe, virtioVcustAssignVirtqueue, queues, entry]
    · exact live.use.setPriv.use.use.use
  · refine ⟨outcomes.virtioFindVqs, { custom.use with priv := true }.use, ?_, queues, ?_, rfl⟩
    · simp [virtioCustdevProbe, virtioVcustAssignVirtqueue, queues]
    · exact live.use.setPriv.use

theorem frees_virtioCustomExit (bound : custom.bound = true → custom.priv = true) :
    (custom.virtioCustomExit core).frees =
      custom.frees + (if custom.bound then 1 else 0) + 1 := by
  cases isBound : custom.bound with
  | false =>
      simp [virtioCustomExit, unregisterVirtioDriver, unregisterVirtioDevice, kfree, use, isBound]
  | true =>
      simp [virtioCustomExit, unregisterVirtioDriver, unregisterVirtioDevice, virtioCustdevRemove,
        kfree, use, isBound, bound isBound]

theorem vcdev_virtioCustomExit : (custom.virtioCustomExit core).vcdev = custom.vcdev := by
  cases isBound : custom.bound <;> cases hasPriv : custom.priv <;>
    simp [virtioCustomExit, unregisterVirtioDriver, unregisterVirtioDevice, virtioCustdevRemove,
      kfree, use, isBound, hasPriv]

/-- A module that was loaded has two owners of the object, of which the probe may be gone. -/
theorem not_sound_virtioCustomExit (vcdev : custom.vcdev = true)
    (bound : custom.bound = true → custom.priv = true)
    (freed : custom.frees + (if custom.bound then 1 else 0) = 1) (loaded : Bool) :
    ¬{ custom.virtioCustomExit core with loaded := loaded }.Sound := by
  rintro ⟨once, _⟩
  have frees := frees_virtioCustomExit core bound
  rcases once (by simp [vcdev_virtioCustomExit, vcdev]) with once | ⟨never, _⟩
  · simp only at once
    omega
  · simp only at never
    omega

end Effects

/-! ### Loading and unloading -/

section Outcomes

variable (core : VirtioCore) {outcomes : Outcomes} {custom : CustomModule}

/-- A driver that registers and whose probe succeeds is bound to the live object. -/
theorem Live.driver_of_probes (live : custom.Live) (driver : outcomes.registerVirtioDriver = 0)
    (probes : outcomes.Probes) :
    ∃ after, registerVirtioDriver core outcomes custom = (0, after) ∧ after.Live ∧
      after.bound = true ∧ after.priv = true := by
  rcases (live.configs core.beforeProbe).probe_of_probes probes with ⟨after, probed, kept, priv⟩
  have keptOn := kept.configs core.afterProbe
  refine ⟨{ after.configs core.afterProbe with bound := true }, ?_, ?_, rfl, ?_⟩
  · simp [registerVirtioDriver, driver, probed]
  · exact ⟨keptOn.vcdev, keptOn.frees, keptOn.usedAfterFree⟩
  · simp [priv]

/-- A driver that registers and whose probe fails leaves the module with a freed object. -/
theorem Live.driver_of_fails (live : custom.Live) (driver : outcomes.registerVirtioDriver = 0)
    (fails : ¬outcomes.Probes) :
    ∃ after, registerVirtioDriver core outcomes custom = (0, after) ∧ after.vcdev = true ∧
      after.bound = custom.bound ∧ after.frees = 1 ∧
      after.usedAfterFree = !core.afterFailedProbe.isEmpty := by
  rcases (live.configs core.beforeProbe).probe_of_fails fails with
    ⟨err, last, probed, failed, kept, bound⟩
  refine ⟨last.kfree.configs core.afterFailedProbe, ?_, ?_, ?_, ?_, ?_⟩
  · simp [registerVirtioDriver, driver, probed, failed]
  · simp [kfree, kept.vcdev]
  · simp [kfree, bound]
  · simp [kfree, kept.frees]
  · simp [kfree, kept.frees, kept.usedAfterFree]

def registered : CustomModule :=
  ({ vcdev := true } : CustomModule).use.use.configs core.onRegister

theorem live_registered : (registered core).Live :=
  Live.configs _ (Live.use (Live.use ⟨rfl, rfl, rfl⟩))

theorem bound_registered : (registered core).bound = false := by
  simp [registered, use]

theorem virtioCustomInit_of_device (allocated : outcomes.allocated = true)
    (device : outcomes.registerVirtioDevice = 0) :
    virtioCustomInit core outcomes {} =
      let (error, after) := registerVirtioDriver core outcomes (registered core)
      if error ≠ 0 then (error, (after.unregisterVirtioDevice core).kfree) else (0, after) := by
  simp only [virtioCustomInit, registerVirtioDevice, allocated, device]
  rfl

theorem loadUnload_of_error {error : ℤ} (unload : Bool)
    (ran : virtioCustomInit core outcomes {} = (error, custom)) (failed : error ≠ 0) :
    loadUnload core outcomes unload = { custom with loaded := false } := by
  simp [loadUnload, ran, failed]

theorem loadUnload_of_loaded (unload : Bool)
    (ran : virtioCustomInit core outcomes {} = (0, custom)) :
    loadUnload core outcomes unload =
      if unload then { { custom with loaded := true }.virtioCustomExit core with loaded := false }
      else { custom with loaded := true } := by
  cases unload <;> simp [loadUnload, ran]

/-- Whatever fails up to the registration of the driver, the object is freed properly. -/
theorem sound_of_not_registered (unload : Bool)
    (fails : outcomes.allocated = false ∨ outcomes.registerVirtioDevice ≠ 0 ∨
      outcomes.registerVirtioDriver ≠ 0) : (loadUnload core outcomes unload).Sound := by
  by_cases allocated : outcomes.allocated = true
  · by_cases device : outcomes.registerVirtioDevice = 0
    · have driver : outcomes.registerVirtioDriver ≠ 0 := by simpa [allocated, device] using fails
      have ran : virtioCustomInit core outcomes {} = (outcomes.registerVirtioDriver,
          ((registered core).unregisterVirtioDevice core).kfree) := by
        rw [virtioCustomInit_of_device core allocated device]
        simp [registerVirtioDriver, driver]
      rw [loadUnload_of_error core unload ran driver]
      exact ((live_registered core).use.configs core.onUnregister).sound_kfree false
    · have ran : virtioCustomInit core outcomes {} =
          (outcomes.registerVirtioDevice, (registered core).kfree) := by
        simp only [virtioCustomInit, registerVirtioDevice, allocated]
        simp [device, registered]
      rw [loadUnload_of_error core unload ran device]
      exact (live_registered core).sound_kfree false
  · have ran : virtioCustomInit core outcomes {} = (-enomem, {}) := by
      simp [virtioCustomInit, allocated]
    rw [loadUnload_of_error core unload ran (by decide)]
    exact ⟨by simp, rfl⟩

/-- With the driver registered, the module comes to hold or to lose the object by the probe. -/
theorem sound_iff_of_registered (unload : Bool) (allocated : outcomes.allocated = true)
    (device : outcomes.registerVirtioDevice = 0) (driver : outcomes.registerVirtioDriver = 0) :
    (loadUnload core outcomes unload).Sound ↔
      unload = false ∧ (outcomes.Probes ∨ core.afterFailedProbe = []) := by
  by_cases probes : outcomes.Probes
  · rcases (live_registered core).driver_of_probes core driver probes with
      ⟨after, registered, live, bound, priv⟩
    have ran : virtioCustomInit core outcomes {} = (0, after) := by
      rw [virtioCustomInit_of_device core allocated device, registered]
      rfl
    rw [loadUnload_of_loaded core unload ran]
    cases unload with
    | false => simp [Sound, live.frees, live.usedAfterFree, probes]
    | true =>
        have unsound := @not_sound_virtioCustomExit core { after with loaded := true }
          live.vcdev (fun _ => priv) (by simp [live.frees, bound]) false
        simpa using unsound
  · rcases (live_registered core).driver_of_fails core driver probes with
      ⟨after, registered, vcdev, bound, frees, used⟩
    rw [bound_registered] at bound
    have ran : virtioCustomInit core outcomes {} = (0, after) := by
      rw [virtioCustomInit_of_device core allocated device, registered]
      rfl
    rw [loadUnload_of_loaded core unload ran]
    cases unload with
    | false => simp [Sound, frees, used, probes]
    | true =>
        have unsound := @not_sound_virtioCustomExit core { after with loaded := true }
          vcdev (by simp [bound]) (by simp [frees, bound]) false
        simpa using unsound

/--
For every outcome of the calls and every virtio core: the object is freed once or kept, and not
used after it was freed, if and only if the module fails to load, or is not unloaded and the probe
succeeds or is followed by no config operation when it fails.
-/
theorem sound_loadUnload_iff (outcomes : Outcomes) (unload : Bool) :
    (loadUnload core outcomes unload).Sound ↔
      (outcomes.allocated = false ∨ outcomes.registerVirtioDevice ≠ 0 ∨
        outcomes.registerVirtioDriver ≠ 0) ∨
      unload = false ∧ (outcomes.Probes ∨ core.afterFailedProbe = []) := by
  by_cases fails : outcomes.allocated = false ∨ outcomes.registerVirtioDevice ≠ 0 ∨
      outcomes.registerVirtioDriver ≠ 0
  · simp [sound_of_not_registered core unload fails, fails]
  · have loads := fails
    simp only [not_or, not_not, Bool.not_eq_false] at loads
    rw [sound_iff_of_registered core unload loads.1 loads.2.1 loads.2.2]
    simp [fails]

/-- Everything succeeds and the module is unloaded: `remove` frees the object, `exit` again. -/
theorem frees_twice : ¬∀ core outcomes unload, (loadUnload core outcomes unload).Sound := by
  intro claimed
  rcases claimed {} {} true with ⟨once, _⟩
  revert once
  decide

end Outcomes

end CustomModule

end VirtLearn.Virtio
