import VirtLearn.Virtio.Driver

/-!
# The setup of the queues

`custdev_find_vqs` creates the queues of a device one after the other and looks at each with
`IS_ERR`. `cd_setup_vq`, which creates them, reports a failure by `NULL`. That is no error pointer,
so the loop goes on and the function succeeds whatever has failed (`allOrNothing_iff`).

The creation of a ring is not part of the source. It is an argument, a function of the request; as
no two requests of a device have the same index, it may fail for any of them.
-/

namespace VirtLearn.Virtio

/-- `VIRTIO_CUSTDEV_VRING_NUM` -/
def virtioCustdevVringNum : ℕ :=
  256

/-- `VIRTIO_CUSTDEV_VRING_ALIGN`, the size of a page. -/
def virtioCustdevVringAlign : ℕ :=
  4096

/-- What `vring_create_virtqueue` is asked for. -/
structure VringRequest (Callback : Type) where
  index : ℕ
  num : ℕ
  vringAlign : ℕ
  weakBarriers : Bool
  mayReduceNum : Bool
  ctx : Bool
  callback : Callback
  name : String

/-- A `struct virtqueue *`; the addresses at the top of memory stand for error numbers. -/
inductive QueuePointer (Queue : Type) where
  | null
  | error (errno : ℕ)
  | queue (vq : Queue)
deriving DecidableEq

namespace QueuePointer

variable {Queue : Type}

/-- `IS_ERR` -/
def isErr : QueuePointer Queue → Bool
  | .error _ => true
  | _ => false

/-- `PTR_ERR`; of a pointer to a queue it would be the address. -/
def ptrErr : QueuePointer Queue → ℤ
  | .error errno => -errno
  | _ => 0

/-- Neither `NULL` nor a queue is an error pointer. -/
theorem isErr_elim (created : Option Queue) :
    (created.elim QueuePointer.null QueuePointer.queue).isErr = false := by
  cases created <;> rfl

end QueuePointer

/-- `struct virtio_device`, of which the list of its queues is of interest. -/
structure VirtioDevice (Queue : Type) where
  vqs : List Queue := []

/-- What `custdev_find_vqs` returns, and leaves in the array of the caller and in the device. -/
structure SetupResult (Queue : Type) where
  ret : ℤ
  vqs : ℕ → QueuePointer Queue
  vdev : VirtioDevice Queue

section Setup

variable {Callback Queue : Type}

/-- `vring_create_virtqueue`: a new queue is linked into the list of the device. -/
def vringCreateVirtqueue (create : VringRequest Callback → Option Queue)
    (request : VringRequest Callback) (vdev : VirtioDevice Queue) :
    QueuePointer Queue × VirtioDevice Queue :=
  match create request with
  | none => (.null, vdev)
  | some vq => (.queue vq, { vqs := vdev.vqs ++ [vq] })

/-- `vring_del_virtqueue`: the queue is taken off the list and freed. -/
def vringDelVirtqueue [DecidableEq Queue] (vdev : VirtioDevice Queue) (vq : Queue) :
    VirtioDevice Queue :=
  { vqs := vdev.vqs.erase vq }

def custdevDelVqs [DecidableEq Queue] (vdev : VirtioDevice Queue) : VirtioDevice Queue :=
  vdev.vqs.foldl vringDelVirtqueue vdev

/-- The request that `cd_setup_vq` makes. -/
def setupRequest (index : ℕ) (callback : Callback) (name : String) (ctx : Bool) :
    VringRequest Callback :=
  { index, callback, name, ctx
    num := virtioCustdevVringNum
    vringAlign := virtioCustdevVringAlign
    weakBarriers := true
    mayReduceNum := true }

def cdSetupVq (create : VringRequest Callback → Option Queue) (vdev : VirtioDevice Queue)
    (index : ℕ) (callback : Callback) (name : String) (ctx : Bool) :
    QueuePointer Queue × VirtioDevice Queue :=
  -- for a `NULL` pointer `err` is set to `-ENOMEM`, and then not used
  vringCreateVirtqueue create (setupRequest index callback name ctx) vdev

section Created

variable (create : VringRequest Callback → Option Queue) (callbacks : ℕ → Callback)
  (names : ℕ → String) (ctx : Option (ℕ → Bool))

/-- What comes of the request for the queue at `i`. -/
def createdAt (i : ℕ) : Option Queue :=
  create (setupRequest i (callbacks i) (names i) (ctx.elim false (· i)))

theorem cdSetupVq_eq (vdev : VirtioDevice Queue) (i : ℕ) :
    cdSetupVq create vdev i (callbacks i) (names i) (ctx.elim false (· i)) =
      ((createdAt create callbacks names ctx i).elim .null .queue,
        { vqs := vdev.vqs ++ (createdAt create callbacks names ctx i).toList }) := by
  rw [cdSetupVq, vringCreateVirtqueue, createdAt]
  cases create (setupRequest i (callbacks i) (names i) (ctx.elim false (· i))) <;> simp

end Created

variable [DecidableEq Queue]

/-- The loop of `custdev_find_vqs`, with `left` queues to go. -/
def findVqsFrom (create : VringRequest Callback → Option Queue) (callbacks : ℕ → Callback)
    (names : ℕ → String) (ctx : Option (ℕ → Bool)) (i : ℕ) (vqs : ℕ → QueuePointer Queue)
    (vdev : VirtioDevice Queue) : ℕ → SetupResult Queue
  | 0 => { ret := 0, vqs, vdev }
  | left + 1 =>
      let (vq, vdev) := cdSetupVq create vdev i (callbacks i) (names i) (ctx.elim false (· i))
      let vqs := Function.update vqs i vq
      if vq.isErr then { ret := vq.ptrErr, vqs, vdev := custdevDelVqs vdev }
      else findVqsFrom create callbacks names ctx (i + 1) vqs vdev left

def custdevFindVqs (create : VringRequest Callback → Option Queue) (vdev : VirtioDevice Queue)
    (nvqs : ℕ) (vqs : ℕ → QueuePointer Queue) (callbacks : ℕ → Callback) (names : ℕ → String)
    (ctx : Option (ℕ → Bool)) : SetupResult Queue :=
  findVqsFrom create callbacks names ctx 0 vqs vdev nvqs

/-- `custdev_del_vqs` leaves no queue of the device. -/
theorem vqs_custdevDelVqs (vdev : VirtioDevice Queue) : (custdevDelVqs vdev).vqs = [] := by
  rcases vdev with ⟨vqs⟩
  rw [custdevDelVqs]
  induction vqs with
  | nil => rfl
  | cons vq rest ih => simpa [vringDelVirtqueue] using ih

/-- Success comes with all the queues, and a failure with none. -/
def AllOrNothing (nvqs : ℕ) (result : SetupResult Queue) : Prop :=
  if result.ret = 0 then ∀ i < nvqs, ∃ vq, result.vqs i = .queue vq
  else result.ret < 0 ∧ result.vdev.vqs = []

variable (create : VringRequest Callback → Option Queue) (callbacks : ℕ → Callback)
  (names : ℕ → String) (ctx : Option (ℕ → Bool))

/-- The loop fills the array to its end and returns 0, whatever is created. -/
theorem findVqsFrom_eq (left i : ℕ) (vqs : ℕ → QueuePointer Queue) (vdev : VirtioDevice Queue) :
    (findVqsFrom create callbacks names ctx i vqs vdev left).ret = 0 ∧
      ∀ k, (findVqsFrom create callbacks names ctx i vqs vdev left).vqs k =
        if i ≤ k ∧ k < i + left then (createdAt create callbacks names ctx k).elim .null .queue
        else vqs k := by
  induction left generalizing i vqs vdev with
  | zero =>
      refine ⟨rfl, ?_⟩
      intro k
      rw [if_neg (by omega)]
      rfl
  | succ left ih =>
      rw [findVqsFrom, cdSetupVq_eq]
      simp only [QueuePointer.isErr_elim, Bool.false_eq_true, if_false]
      refine ⟨(ih _ _ _).1, ?_⟩
      intro k
      rw [(ih _ _ _).2 k]
      by_cases here : k = i
      · rw [here, if_neg (by omega), if_pos (by omega), Function.update_self]
      · by_cases inside : i ≤ k ∧ k < i + (left + 1)
        · rw [if_pos inside, if_pos (by omega)]
        · rw [if_neg inside, if_neg (by omega), Function.update_of_ne here]

theorem custdevFindVqs_eq (vdev : VirtioDevice Queue) (nvqs : ℕ)
    (vqs : ℕ → QueuePointer Queue) :
    (custdevFindVqs create vdev nvqs vqs callbacks names ctx).ret = 0 ∧
      ∀ i < nvqs, (custdevFindVqs create vdev nvqs vqs callbacks names ctx).vqs i =
        (createdAt create callbacks names ctx i).elim .null .queue := by
  rcases findVqsFrom_eq create callbacks names ctx nvqs 0 vqs vdev with ⟨ret, filled⟩
  refine ⟨ret, ?_⟩
  intro i below
  rw [custdevFindVqs, filled i, if_pos (by omega)]

/--
For every number of queues and every pattern of failures, the setup is all or nothing if and only
if every queue can be created.
-/
theorem allOrNothing_iff (vdev : VirtioDevice Queue) (nvqs : ℕ) (vqs : ℕ → QueuePointer Queue) :
    AllOrNothing nvqs (custdevFindVqs create vdev nvqs vqs callbacks names ctx) ↔
      ∀ i < nvqs, (createdAt create callbacks names ctx i).isSome := by
  rcases custdevFindVqs_eq create callbacks names ctx vdev nvqs vqs with ⟨ret, filled⟩
  rw [AllOrNothing, if_pos ret]
  constructor
  · intro all i below
    rcases all i below with ⟨vq, pointer⟩
    rw [filled i below] at pointer
    cases created : createdAt create callbacks names ctx i with
    | none => simp [created] at pointer
    | some _ => rfl
  · intro created i below
    rcases Option.isSome_iff_exists.mp (created i below) with ⟨vq, created⟩
    refine ⟨vq, ?_⟩
    rw [filled i below, created]
    rfl

/-- With no memory for the second queue, its pointer is `NULL` and the setup has succeeded. -/
theorem not_allOrNothing_of_second : ¬AllOrNothing 2
    (custdevFindVqs (fun request => if request.index = 1 then none else some request.index)
      {} 2 (fun _ => .null) (fun _ => ()) (fun _ => "") none) := by
  intro all
  rcases all 1 (by decide) with ⟨vq, pointer⟩
  revert pointer
  simp [custdevFindVqs, findVqsFrom, cdSetupVq, vringCreateVirtqueue, setupRequest,
    QueuePointer.isErr, Function.update]

end Setup

/-! ### The two queues of the driver -/

/-- The callbacks of the driver's queues. -/
inductive VqCallback where
  | virtioCustdevOutbufCb
  | virtioCustdevInbufCb
deriving DecidableEq

/-- What `virtio_vcust_assign_virtqueue` returns, and puts into the driver's device. -/
structure AssignResult (Queue : Type) where
  err : ℤ
  vqTx : QueuePointer Queue
  vqRx : QueuePointer Queue

section Assign

variable {Queue : Type} [DecidableEq Queue]

def assignNames : ℕ → String
  | 0 => "virtio-vview-tx"
  | _ => "virtio-vview-rx"

def assignCallbacks : ℕ → VqCallback
  | 0 => .virtioCustdevOutbufCb
  | _ => .virtioCustdevInbufCb

/-- `virtio_vcust_assign_virtqueue`, which gets to `custdev_find_vqs` through `virtio_find_vqs`. -/
def virtioVcustAssignVirtqueue (create : VringRequest VqCallback → Option Queue)
    (vdev : VirtioDevice Queue) (before : AssignResult Queue) : AssignResult Queue :=
  let result := custdevFindVqs create vdev 2 (fun _ => .null) assignCallbacks assignNames none
  if result.ret ≠ 0 then { before with err := result.ret }
  else { err := 0, vqTx := result.vqs 0, vqRx := result.vqs 1 }

/-- The probe is told that all is well, and either queue may be missing. -/
theorem virtioVcustAssignVirtqueue_eq (create : VringRequest VqCallback → Option Queue)
    (vdev : VirtioDevice Queue) (before : AssignResult Queue) :
    virtioVcustAssignVirtqueue create vdev before =
      { err := 0
        vqTx := (createdAt create assignCallbacks assignNames none 0).elim .null .queue
        vqRx := (createdAt create assignCallbacks assignNames none 1).elim .null .queue } := by
  rcases custdevFindVqs_eq create assignCallbacks assignNames none vdev 2 (fun _ => .null) with
    ⟨ret, filled⟩
  rw [virtioVcustAssignVirtqueue, if_neg (by simpa using ret), filled 0 (by decide),
    filled 1 (by decide)]

end Assign

end VirtLearn.Virtio
