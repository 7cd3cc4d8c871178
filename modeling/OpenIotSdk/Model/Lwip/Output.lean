import OpenIotSdk.Library.Ledger

/-! # Transmission in `lwip_emac_netif.c`

The tcpip thread runs `ethernetif_output`, and the EMAC calls `ethernetif_sent` between any
two of its statements. lwIP takes and drops references of its own at any time. -/

namespace OpenIotSdk.Lwip.Output

/-- What `mdh_emac_transmit` gets. -/
inductive Buffer where
  | pbuf (p : ℕ) -- the caller's pbuf, with a reference of its own
  | copy (id : ℕ) -- a copy of a chain
  deriving DecidableEq

def Buffer.id? : Buffer → Option ℕ
  | .pbuf _ => none
  | .copy id => some id

/-- Where the tcpip thread is in `ethernetif_output`. -/
inductive Pc where
  | idle -- outside the function
  | alloc -- `mdh_network_stack_memory_manager_alloc_from_heap`, and the chain is copied
  | transmit (buf : Buffer) -- `mdh_emac_transmit`
  deriving DecidableEq

/-- `err_t`, as far as the function returns it. -/
inductive Err where
  | ok -- `ERR_OK`
  | netif -- `ERR_IF`
  deriving DecidableEq

/-- `mdh_emac_transfer_t`. -/
inductive Transfer where
  | done -- `MDH_EMAC_TRANSFER_DONE`
  | error -- `MDH_EMAC_TRANSFER_ERROR`
  deriving DecidableEq

structure State where
  ref : ℕ → ℕ -- the reference count of each pbuf of lwIP
  own : ℕ → ℕ -- how many of these references are lwIP's own
  copies : Ledger -- the copies, which are settled when they are freed
  inFlight : List Buffer -- accepted transmissions whose callback has not been called
  pc : Pc
  err : Err -- of the last call

/-- lwIP holds all the references. -/
def init (own : ℕ → ℕ) : State where
  ref := own
  own := own
  copies := .empty
  inFlight := []
  pc := .idle
  err := .ok

inductive Action where
  | retain (p : ℕ) -- lwIP calls `pbuf_ref` for a reference of its own
  | drop (p : ℕ) -- lwIP calls `pbuf_free` for one of its references
  | output (p : ℕ) (next : List ℕ) -- `ethernetif_output` with a pbuf and the rest of its chain
  | advance (ok : Bool) -- the rest of the call, up to the answer of the heap or of the EMAC
  | sent (buf : Buffer) (status : Transfer) -- `ethernetif_sent`
  deriving DecidableEq

namespace State

/-- `pbuf_ref`. -/
def pbufRef (s : State) (p : ℕ) : State :=
  { s with ref := Function.update s.ref p (s.ref p + 1) }

/-- `mdh_network_stack_memory_manager_free`, which is `pbuf_free`. A copy has one reference. -/
def free (s : State) : Buffer → State
  | .pbuf p => { s with ref := Function.update s.ref p (s.ref p - 1) }
  | .copy id => { s with copies := s.copies.settle id }

/-- `ethernetif_output` up to its call of the heap or of the EMAC. -/
def ethernetifOutput (s : State) (p : ℕ) (next : List ℕ) : State :=
  if next ≠ [] then { s with pc := .alloc }
  else { s.pbufRef p with pc := .transmit (.pbuf p) }

/-- The answer of the heap or of the EMAC. -/
def advance (s : State) (ok : Bool) : Option State :=
  match s.pc with
  | .idle => none
  | .alloc =>
      some (if ok then
        { s with copies := s.copies.issue, pc := .transmit (.copy s.copies.issued) }
      else { s with pc := .idle, err := .netif })
  | .transmit buf =>
      some (if ok then { s with pc := .idle, err := .ok, inFlight := s.inFlight ++ [buf] }
        else { s with pc := .idle, err := .netif })

/-- `ethernetif_sent`, which only logs the status. -/
def ethernetifSent (s : State) (buf : Buffer) : State :=
  { s.free buf with inFlight := s.inFlight.erase buf }

end State

/-- One step. A caller holds a reference of the pbuf it passes, and the EMAC calls back once
for each transmission it accepted. -/
def step (s : State) (a : Action) : Option State :=
  match a with
  | .retain p => some { s.pbufRef p with own := Function.update s.own p (s.own p + 1) }
  | .drop p =>
      if 0 < s.own p then
        some { s.free (.pbuf p) with own := Function.update s.own p (s.own p - 1) }
      else none
  | .output p next =>
      if s.pc = .idle ∧ 0 < s.own p then some (s.ethernetifOutput p next) else none
  | .advance ok => s.advance ok
  | .sent buf _ => if buf ∈ s.inFlight then some (s.ethernetifSent buf) else none

end OpenIotSdk.Lwip.Output
