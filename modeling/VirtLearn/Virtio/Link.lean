import VirtLearn.Virtio.Driver

/-!
# Driver and device on one transport

The virtio transport joins the driver's transmit queue to the queue the device serves with
`virtio_custdev_handle_outbuf`, and the driver's receive queue to the one it serves with
`virtio_custdev_handle_inbuf`. A queue is shared memory, so the driver's record of it is the only
one and the device works on that.
-/

namespace VirtLearn.Virtio

structure Link where
  driver : VirtioCustomDevice
  device : VirtIOCustdev

namespace Link

def initial : Link :=
  { driver := virtioCustdevProbe, device := virtioCustdevDeviceRealize }

/-- The device serves a notification of the driver's transmit queue. -/
def serveOutbuf (status : QueueStatus) (link : Link) : Option Link :=
  (virtioCustdevHandleOutbuf status link.device link.driver.vqTx).map fun (device, vq) =>
    { driver := { link.driver with vqTx := vq }, device }

/-- The device serves a notification of the driver's receive queue. -/
def serveInbuf (beyond : ℕ → UInt8) (status : QueueStatus) (link : Link) : Option Link :=
  (virtioCustdevHandleInbuf beyond status link.device link.driver.vqRx).map fun (device, vq) =>
    { driver := { link.driver with vqRx := vq }, device }

section Serve

variable {link : Link} {status : QueueStatus} {beyond : ℕ → UInt8} {vqe : VirtQueueElement}
  {rest : List VirtQueueElement}

theorem serveOutbuf_of_down (down : status.up = false) : link.serveOutbuf status = some link := by
  simp [serveOutbuf, virtioCustdevHandleOutbuf_of_down down]

theorem serveInbuf_of_down (down : status.up = false) :
    link.serveInbuf beyond status = some link := by
  simp [serveInbuf, virtioCustdevHandleInbuf_of_down down]

theorem serveOutbuf_of_up (up : status.up = true) (avail : link.driver.vqTx.avail = vqe :: rest) :
    link.serveOutbuf status = some
      { driver :=
          { link.driver with
            vqTx := { avail := rest, used := link.driver.vqTx.used ++ [⟨vqe, [], 0⟩] } }
        device := link.device.storeMessage vqe } := by
  simp [serveOutbuf, virtioCustdevHandleOutbuf_of_up up avail]

theorem serveInbuf_of_up (up : status.up = true) (avail : link.driver.vqRx.avail = vqe :: rest) :
    link.serveInbuf beyond status = some
      { driver :=
          { link.driver with
            vqRx :=
              { avail := rest
                used := link.driver.vqRx.used ++
                  [⟨vqe, link.device.answer beyond vqe, vqe.inIovLen⟩] } }
        device := link.device.dropMessage } := by
  simp [serveInbuf, virtioCustdevHandleInbuf_of_up up avail]

theorem serveOutbuf_cases {after : Link} (served : link.serveOutbuf status = some after) :
    (status.up = false ∧ after = link) ∨
      ∃ vqe rest, status.up = true ∧ link.driver.vqTx.avail = vqe :: rest ∧
        after =
          { driver :=
              { link.driver with
                vqTx := { avail := rest, used := link.driver.vqTx.used ++ [⟨vqe, [], 0⟩] } }
            device := link.device.storeMessage vqe } := by
  cases up : status.up with
  | false =>
      rw [serveOutbuf_of_down up] at served
      exact Or.inl ⟨rfl, (Option.some.inj served).symm⟩
  | true =>
      cases avail : link.driver.vqTx.avail with
      | nil =>
          rcases status with ⟨_ | _, _ | _⟩ <;> simp [QueueStatus.up] at up
          simp [serveOutbuf, virtioCustdevHandleOutbuf, VirtQueue.pop, avail] at served
      | cons vqe rest =>
          rw [serveOutbuf_of_up up avail] at served
          exact Or.inr ⟨vqe, rest, rfl, rfl, (Option.some.inj served).symm⟩

theorem serveInbuf_cases {after : Link} (served : link.serveInbuf beyond status = some after) :
    (status.up = false ∧ after = link) ∨
      ∃ vqe rest, status.up = true ∧ link.driver.vqRx.avail = vqe :: rest ∧
        after =
          { driver :=
              { link.driver with
                vqRx :=
                  { avail := rest
                    used := link.driver.vqRx.used ++
                      [⟨vqe, link.device.answer beyond vqe, vqe.inIovLen⟩] } }
            device := link.device.dropMessage } := by
  cases up : status.up with
  | false =>
      rw [serveInbuf_of_down up] at served
      exact Or.inl ⟨rfl, (Option.some.inj served).symm⟩
  | true =>
      cases avail : link.driver.vqRx.avail with
      | nil =>
          rcases status with ⟨_ | _, _ | _⟩ <;> simp [QueueStatus.up] at up
          simp [serveInbuf, virtioCustdevHandleInbuf, VirtQueue.pop, avail] at served
      | cons vqe rest =>
          rw [serveInbuf_of_up up avail] at served
          exact Or.inr ⟨vqe, rest, rfl, rfl, (Option.some.inj served).symm⟩

end Serve

end Link

end VirtLearn.Virtio
