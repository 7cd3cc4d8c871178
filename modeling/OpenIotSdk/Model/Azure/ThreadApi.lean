import Mathlib.Data.Int.Order.Basic
import Mathlib.Data.List.Basic
import Mathlib.Logic.Function.Basic

/-! # `threadapi_openiot.c`

The contexts of the threads are blocks of the heap, in a doubly linked list. A call takes its
steps from one call of the RTOS to the next, and between them the other threads take theirs. -/

namespace OpenIotSdk.ThreadApi

/-- `THREADAPI_RESULT`. -/
inductive Result where
  | ok
  | invalidArg
  | noMemory
  | error
  deriving DecidableEq

def osErrorParameter : ℤ := -4
def osErrorNoMemory : ℤ := -5

def osStatusToThreadapiResult (status : ℤ) : Result :=
  if status = 0 then .ok
  else if status = osErrorParameter then .invalidArg
  else if status = osErrorNoMemory then .noMemory
  else .error

/-- `thread_context_t`; null pointers and ids are `none`. -/
structure Context where
  func : Option ℕ
  arg : Option ℕ
  threadId : Option ℕ
  queue : Option (Option ℤ) -- with what it holds
  next : Option ℕ
  prev : Option ℕ
  deriving DecidableEq

/-- A block that `calloc` gives. -/
def Context.zero : Context := ⟨none, none, none, none, none, none⟩

/-- How far `ThreadAPI_Create` has come with a context. -/
inductive Stage where
  | queueNew -- `osMessageQueueNew`
  | threadNew -- `osThreadNew`
  | store (thread : ℕ) -- the thread exists, and its id is not yet in the context
  | returned -- with the handle
  | failed
  deriving DecidableEq

inductive Pc where
  | none -- there is no such thread
  | running
  | exiting (context : ℕ) (res : ℤ) -- `osMessageQueuePut` in `ThreadAPI_Exit`
  | returning (res : ℤ) -- `osMessageQueuePut` in `thread_wrapper_callback`
  deriving DecidableEq

structure Thread where
  context : ℕ -- `p_context`
  pc : Pc
  deriving DecidableEq

structure State where
  context : ℕ → Context
  head : Option ℕ -- `threads_head`
  last : Option ℕ -- `threads_last`
  contexts : List ℕ -- the contexts that are allocated, the oldest first
  callocs : ℕ -- how many contexts have been allocated so far
  stage : ℕ → Stage
  thread : ℕ → Thread
  found : Option ℕ -- the last result of `get_current_thread_context`
  result : Result -- of the last call

def init : State where
  context := fun _ => .zero
  head := none
  last := none
  contexts := []
  callocs := 0
  stage := fun _ => .failed
  thread := fun _ => ⟨0, .none⟩
  found := none
  result := .ok

namespace State

variable (s : State)

def modify (c : ℕ) (f : Context → Context) : State :=
  { s with context := Function.update s.context c (f (s.context c)) }

def setQueue (c : ℕ) (queue : Option (Option ℤ)) : State :=
  s.modify c fun context => { context with queue := queue }

def setThreadId (c : ℕ) (threadId : Option ℕ) : State :=
  s.modify c fun context => { context with threadId := threadId }

def setStage (c : ℕ) (stage : Stage) : State :=
  { s with stage := Function.update s.stage c stage }

def setPc (thread : ℕ) (pc : Pc) : State :=
  { s with thread := Function.update s.thread thread { s.thread thread with pc := pc } }

def ret (result : Result) : State := { s with result := result }

/-! ## The list -/

/-- `calloc`. -/
def calloc (c : ℕ) : State :=
  { s with
    context := Function.update s.context c .zero
    contexts := s.contexts ++ [c]
    callocs := s.callocs + 1 }

/-- The context becomes the last one. -/
def link (c : ℕ) : State :=
  match s.last with
  | some last =>
      { (s.modify c fun context => { context with prev := some last }).modify last
          fun context => { context with next := some c } with last := some c }
  | none => { s with head := some c, last := some c }

/-- The loop of `get_current_thread_context`; the fuel is enough for all the contexts. -/
def search (thread : ℕ) : ℕ → Option ℕ → Option ℕ
  | 0, _ | _, none => none
  | fuel + 1, some c =>
      if (s.context c).threadId = some thread then some c
      else search thread fuel (s.context c).next

def getCurrentThreadContext (thread : ℕ) : Option ℕ := s.search thread s.callocs s.head

/-- `destroy_thread_context`, when `osMessageQueueDelete` answers `status`. -/
def destroyThreadContext (c : ℕ) (status : ℤ) : State :=
  if (s.context c).queue ≠ none ∧ status ≠ 0 then s.ret (osStatusToThreadapiResult status)
  else
    let s := match (s.context c).prev with
      | some prev => s.modify prev fun context => { context with next := (s.context c).next }
      | none => s
    { s with contexts := s.contexts.erase c }.ret .ok

/-! ## `ThreadAPI_Create` -/

/-- Up to `osMessageQueueNew`; `calloc` gives `block`. -/
def create (handle : Bool) (func arg : Option ℕ) (block : Option ℕ) : Option State :=
  if handle = false ∨ func = none then some (s.ret .invalidArg)
  else
    match block with
    | none => some (s.ret .noMemory)
    | some c =>
        if c ∈ s.contexts then none
        else
          let s := (s.calloc c).link c
          some ((s.modify c fun context => { context with func := func, arg := arg }).setStage c
            .queueNew)

def queueNew (c : ℕ) (created : Bool) : State :=
  if created then (s.setQueue c (some none)).setStage c .threadNew
  else ((s.setStage c .failed).destroyThreadContext c 0).ret .error

/-- `osThreadNew`, and where it fails, the answer of `osMessageQueueDelete`. The id of a new
thread is no other thread's. -/
def threadNew (c : ℕ) (created : Option ℕ) (status : ℤ) : Option State :=
  match created with
  | some thread =>
      if (s.thread thread).pc = .none then
        some ({ s with thread := Function.update s.thread thread ⟨c, .running⟩ }.setStage c
          (.store thread))
      else none
  | none =>
      some ((((s.setThreadId c none).setStage c .failed).destroyThreadContext c status).ret .error)

/-- The id is stored, and the call returns. -/
def store (c thread : ℕ) : State :=
  ((s.setThreadId c (some thread)).setStage c .returned).ret .ok

/-! ## The end of a thread -/

/-- `ThreadAPI_Exit` up to `osMessageQueuePut`. -/
def exit (thread : ℕ) (res : ℤ) : State :=
  let found := s.getCurrentThreadContext thread
  let s := { s with found := found }
  match found with
  | some c => s.setPc thread (.exiting c res)
  | none => s

/-- `osMessageQueuePut` with success, which waits for room; then the thread ends. -/
def queuePut (thread c : ℕ) (res : ℤ) : Option State :=
  if (s.context c).queue = some none then
    some ((s.setQueue c (some (some res))).setPc thread .none)
  else none

/-- `exit_thread`, from `osMessageQueuePut` on. -/
def put (thread : ℕ) (status : ℤ) : Option State :=
  match (s.thread thread).pc with
  | .exiting c res => if status = 0 then s.queuePut thread c res else some (s.setPc thread .running)
  | .returning res =>
      if status = 0 then s.queuePut thread (s.thread thread).context res
      else some (s.setPc thread .none)
  | .none | .running => none

/-- `ThreadAPI_Join`, with the answers of `osMessageQueueGet`, which waits for the result of the
thread, and of `osMessageQueueDelete`. -/
def join (c : ℕ) (status deleted : ℤ) : Option State :=
  if s.stage c = .returned ∧ c ∈ s.contexts then
    if status = 0 then
      match (s.context c).queue with
      | some (some _) =>
          some ((s.setQueue c (some none)).destroyThreadContext c deleted)
      | some none | none => none
    else some (s.ret (osStatusToThreadapiResult status))
  else none

end State

inductive Action where
  | create (handle : Bool) (func arg : Option ℕ) (block : Option ℕ)
  | queueNew (c : ℕ) (created : Bool)
  | threadNew (c : ℕ) (created : Option ℕ) (status : ℤ)
  | store (c : ℕ)
  | exit (thread : ℕ) (res : ℤ)
  | returns (thread : ℕ) (res : ℤ) -- the function of the thread returns
  | put (thread : ℕ) (status : ℤ)
  | join (c : ℕ) (status deleted : ℤ)
  deriving DecidableEq

def step (s : State) : Action → Option State
  | .create handle func arg block => s.create handle func arg block
  | .queueNew c created => if s.stage c = .queueNew then some (s.queueNew c created) else none
  | .threadNew c created status =>
      if s.stage c = .threadNew then s.threadNew c created status else none
  | .store c =>
      match s.stage c with
      | .store thread => some (s.store c thread)
      | .queueNew | .threadNew | .returned | .failed => none
  | .exit thread res =>
      if (s.thread thread).pc = .running then some (s.exit thread res) else none
  | .returns thread res =>
      if (s.thread thread).pc = .running then some (s.setPc thread (.returning res)) else none
  | .put thread status => s.put thread status
  | .join c status deleted => s.join c status deleted

end OpenIotSdk.ThreadApi
