import OpenIotSdk.Library.Memory

/-! # Part of what is loaded

A store to the middle of a region, as it is seen from the whole region. -/

namespace Memory

variable {β : Type*} {m : Memory β} {a n off size : ℕ} {data : List β}

end Memory
