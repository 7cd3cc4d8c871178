import OpenIotSdk.Library.Ledger

/-! # Reception in `lwip_emac_netif.c`

The EMAC interrupts between any two statements of `lwip_task`, which waits for a binary
semaphore and then fetches frames in `ethernetif_process_input`. -/

namespace OpenIotSdk.Lwip.Receive

/-- Where `lwip_task` is. -/
inductive Pc where
  | wait -- `sys_arch_sem_wait(&lwip_context.receive_semaphore, 0)`
  | receive -- `ethernetif_process_input`: `mdh_emac_receive`
  | alloc -- `mdh_network_stack_memory_manager_alloc_from_static_pool`
  | input (buf : ℕ) -- the frame is copied and `context->lwip_netif.input` called
  | free (buf : ℕ) -- `mdh_network_stack_memory_manager_free`
  deriving DecidableEq

structure State where
  semaphore : Bool -- the count of `receive_semaphore`
  pc : Pc
  arrived : ℕ -- how many frames the EMAC got
  /-- The frames for which `ethernetif_input` was called with `MDH_EMAC_RECEIVE_DONE`, each by its
  number in the order of arrival. -/
  announced : List ℕ
  fetched : ℕ -- how many frames `mdh_emac_receive` returned; the EMAC holds those from this one on
  pool : Ledger -- the pbufs for reception, which are settled when lwIP takes them or on `free`

def init : State where
  semaphore := false
  pc := .wait
  arrived := 0
  announced := []
  fetched := 0
  pool := .empty

inductive Action where
  | arrive -- the EMAC gets a frame
  /-- `ethernetif_input` for a frame, with `MDH_EMAC_RECEIVE_DONE` or another status. -/
  | interrupt (frame : ℕ) (done : Bool)
  /-- `lwip_task` runs its next statement; `ok` is the answer of the pool or of lwIP, if it
  asks one. -/
  | advance (ok : Bool)
  deriving DecidableEq

namespace State

/-- `ethernetif_input`, for a frame that has arrived; the semaphore counts to 1. -/
def ethernetifInput (s : State) (frame : ℕ) (done : Bool) : Option State :=
  if done = false then some s
  else if frame < s.arrived then
    some { s with announced := frame :: s.announced, semaphore := true }
  else none

/-- The statement at which `lwip_task` stands. `mdh_emac_receive` fails or returns a frame of
length 0 only when no frame is waiting. -/
def advance (s : State) (ok : Bool) : Option State :=
  match s.pc with
  | .wait => if s.semaphore then some { s with semaphore := false, pc := .receive } else none
  | .receive =>
      some (if s.fetched < s.arrived then { s with fetched := s.fetched + 1, pc := .alloc }
        else { s with pc := .wait })
  | .alloc =>
      some (if ok then { s with pool := s.pool.issue, pc := .input s.pool.issued }
        else { s with pc := .wait })
  | .input buf =>
      some (if ok then { s with pool := s.pool.settle buf, pc := .receive }
        else { s with pc := .free buf })
  | .free buf => some { s with pool := s.pool.settle buf, pc := .receive }

end State

def step (s : State) (a : Action) : Option State :=
  match a with
  | .arrive => some { s with arrived := s.arrived + 1 }
  | .interrupt frame done => s.ethernetifInput frame done
  | .advance ok => s.advance ok

end OpenIotSdk.Lwip.Receive
