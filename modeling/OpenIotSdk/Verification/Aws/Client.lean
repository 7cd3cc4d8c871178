import OpenIotSdk.Library.History
import OpenIotSdk.Library.Transition
import OpenIotSdk.Model.Aws.Client
import OpenIotSdk.Verification.Aws.Connect

/-! # The threads of the AWS client

`app_task` has the MQTT context and the connection for itself when it takes them down, whatever
the order of the steps of the threads. -/

namespace OpenIotSdk.Aws.Client

open Cmsis NetworkContext Transition

/-! ## The specification -/

/-- The receive thread has said that it terminates. -/
def AppPc.Alone : AppPc → Prop
  | .threadTerminate | .disconnect | .close | .returned true => True
  | _ => False

/-- The receive thread has been terminated. -/
def AppPc.Cleaning : AppPc → Prop
  | .disconnect | .close | .returned true => True
  | _ => False

/-- The connection that `app_task` has where it is. -/
def Connection (network : NetworkContext) : AppPc → Prop
  | .messageQueueGet | .mqttInit | .networkConnect | .closeUnconnected | .returned true =>
      network.Idle
  | .returned false => network.Idle ∨ ∃ socket, network.Holds socket
  | _ => ∃ socket, network.Holds socket

/-- What may happen after `before`. -/
structure InOrder (event : Event) (before : List Event) : Prop where
  receive : event = .processLoop ∨ (∃ id, event = .puback id) →
    .threadTerminated ∉ before ∧ .disconnect ∉ before ∧ .close ∉ before
  disconnect : event = .disconnect → .threadTerminated ∈ before ∧ .disconnect ∉ before
  close : event = .close → .close ∉ before ∧ (.connected ∈ before → .disconnect ∈ before)

/-- The MQTT context and the connection are taken down by the only thread that is left. -/
structure Exclusive (s : State) : Prop where
  alone : s.app.Alone → s.background = .delay ∨ s.background = .ended
  terminated : s.app.Cleaning → s.background = .ended
  connection : Connection s.network s.app
  order : History.Along InOrder s.trace

/-! ## What a step does -/

/-- The connection of `app_task` when it goes on after `AwsNetwork_connect`. -/
structure Connects (network : NetworkContext) (connected : NetworkContext × ℤ) : Prop where
  holds : network.Idle → connected.2 = 0 → ∃ socket, connected.1.Holds socket
  idle : network.Idle → connected.2 ≠ 0 → connected.1.Idle

theorem Connects.connect (network : NetworkContext) (retries : ℕ) (tls : TlsAnswers)
    (answers : ℕ → Answers) : Connects network (network.init.connect true retries tls answers) := by
  have hconcluded (h : network.Idle) :
      (network.init.connect true retries tls answers).2 = 0 ∧
          (∃ socket, (network.init.connect true retries tls answers).1.Holds socket) ∨
        (network.init.connect true retries tls answers).2 = -1 ∧
          (network.init.connect true retries tls answers).1.Idle := by
    have hinit : network.init.Idle := ⟨rfl, rfl, h.balanced⟩
    rw [NetworkContext.connect]
    split
    · exact .inr ⟨rfl, hinit⟩
    · obtain ⟨hzero, _, _, _, socket, hestablished⟩ | ⟨hfailed, hidle⟩ :=
        hinit.connectLoop true retries answers
      · exact .inl ⟨hzero, socket, hestablished.holds⟩
      · exact .inr ⟨hfailed, hidle⟩
  constructor
  · intro h hzero
    obtain ⟨-, hholds⟩ | ⟨hfailed, -⟩ := hconcluded h
    · exact hholds
    · rw [hzero] at hfailed
      exact absurd hfailed (by decide)
  · intro h hne
    obtain ⟨hzero, -⟩ | ⟨-, hidle⟩ := hconcluded h
    · exact absurd hzero hne
    · exact hidle

def AppPc.CanFail : AppPc → Prop
  | .mqttInit | .eventFlagsNew | .threadNew | .publish | .threadTerminate | .disconnect => True
  | _ => False

/-- The steps of `app_task` that only change where it is. -/
def AppPc.Next (app next : AppPc) : Prop :=
  app = .mqttInit ∧ next = .networkConnect ∨ app = .eventFlagsNew ∧ next = .threadNew

inductive Moves (s : State) : State → Prop where
  | network (event : NetEvent) (queue : List NetEvent)
      (hqueue : queue = s.queue ∨ queue = s.queue ++ [event] ∧ queue.length ≤ 10) :
      Moves s { s with queue := queue, trace := .network event :: s.trace }
  | waited (queue : List NetEvent) (happ : s.app = .messageQueueGet)
      (hqueue : queue <:+ s.queue) : Moves s { s with queue := queue }
  | up (queue : List NetEvent) (happ : s.app = .messageQueueGet)
      (hqueue : s.queue = .networkUp :: queue) :
      Moves s { s with queue := queue, app := .mqttInit }
  | next (app : AppPc) (happ : s.app.Next app) : Moves s { s with app := app }
  | fail (happ : s.app.CanFail) : Moves s { s with app := .returned false }
  | unconnected (connected : NetworkContext × ℤ) (happ : s.app = .networkConnect)
      (h : Connects s.network connected) (hres : connected.2 ≠ 0) :
      Moves s { s with network := connected.1, app := .closeUnconnected }
  | connected (connected : NetworkContext × ℤ) (happ : s.app = .networkConnect)
      (h : Connects s.network connected) (hres : connected.2 = 0) :
      Moves s { s with
        network := connected.1
        app := .eventFlagsNew
        trace := .connected :: s.trace }
  | closeUnconnected (happ : s.app = .closeUnconnected) :
      Moves s { s with
        network := s.network.close
        app := .returned false
        trace := .close :: s.trace }
  | threadNew (happ : s.app = .threadNew) :
      Moves s { s with background := .eventFlagsGet, app := .getPacketId }
  | getPacketId (id : PacketId) (happ : s.app = .getPacketId) :
      Moves s { s with
        mqttPacketId := id
        app := .publish
        trace := .packetId id :: s.trace }
  | publish (app : AppPc) (happ : s.app = .publish) (hnext : app = .waitAck ∨ app = .returned false) :
      Moves s { s with app := app, trace := .publish :: s.trace }
  | acknowledged (app : AppPc) (happ : s.app = .waitAck)
      (hflag : isBitSet s.flags mqttThreadAckReceived = true)
      (hnext : app = .setTerminate ∨ app = .returned false) :
      Moves s { s with
        flags := osThreadFlagsClear s.flags (bitMask mqttThreadAckReceived)
        app := app }
  | terminate (app : AppPc) (happ : s.app = .setTerminate)
      (hnext : app = .waitTerminating ∨ app = .returned false) :
      Moves s { s with
        flags := osThreadFlagsSet s.flags (bitMask terminateMqttThread)
        app := app }
  | terminating (app : AppPc) (happ : s.app = .waitTerminating)
      (hflag : isBitSet s.flags mqttThreadTerminating = true)
      (hnext : app = .threadTerminate ∨ app = .returned false) :
      Moves s { s with
        flags := osThreadFlagsClear s.flags (bitMask mqttThreadTerminating)
        app := app }
  | threadTerminate (happ : s.app = .threadTerminate) :
      Moves s { s with
        background := .ended
        app := .disconnect
        trace := .threadTerminated :: s.trace }
  | disconnect (app : AppPc) (happ : s.app = .disconnect)
      (hnext : app = .close ∨ app = .returned false) :
      Moves s { s with app := app, trace := .disconnect :: s.trace }
  | close (happ : s.app = .close) :
      Moves s { s with
        network := s.network.close
        app := .returned true
        trace := .close :: s.trace }
  | stop (hback : s.background = .eventFlagsGet)
      (hflag : isBitSet s.flags terminateMqttThread = true) :
      Moves s { s with background := .setTerminating }
  | processLoop (hback : s.background = .eventFlagsGet) :
      Moves s { s with background := .processLoop, trace := .processLoop :: s.trace }
  | packet (background : BackgroundPc) (hback : s.background = .processLoop)
      (hnext : background = .processLoop ∨ background = .eventFlagsGet ∨
        ∃ id, background = .puback id) : Moves s { s with background := background }
  | matching (id : PacketId) (hback : s.background = .puback id) (hid : s.mqttPacketId = id) :
      Moves s { s with background := .setAck, trace := .puback id :: s.trace }
  | other (id : PacketId) (hback : s.background = .puback id) :
      Moves s { s with background := .processLoop, trace := .puback id :: s.trace }
  | setAck (hback : s.background = .setAck) :
      Moves s { s with
        background := .processLoop
        flags := osThreadFlagsSet s.flags (bitMask mqttThreadAckReceived) }
  | setTerminating (hback : s.background = .setTerminating) :
      Moves s { s with
        background := .delay
        flags := osThreadFlagsSet s.flags (bitMask mqttThreadTerminating) }
  | delayed (hback : s.background = .delay) : Moves s { s with background := .ended }

variable {s t : State}

theorem osEventFlagsWait_eq_some {flags : Flags} {pos : ℕ} {found : Flags × Flags}
    (h : osEventFlagsWait flags pos = some found) :
    isBitSet flags pos = true ∧ found = (osThreadFlagsClear flags (bitMask pos), flags) := by
  obtain ⟨hset, hfound⟩ := Option.ite_none_right_eq_some.mp h
  exact ⟨hset, (Option.some.inj hfound).symm⟩

theorem moves_advanceApp (ht : s.advanceApp = some t) : Moves s t := by
  cases happ : s.app with
  | messageQueueGet =>
      simp only [State.advanceApp, happ] at ht
      split at ht
      · next hqueue =>
          cases ht
          exact .waited s.queue happ List.suffix_rfl
      · next queue hqueue =>
          cases ht
          exact .up queue happ hqueue
      · next queue hqueue =>
          cases ht
          have hwaited := Moves.waited queue happ (hqueue ▸ List.suffix_cons _ queue)
          rwa [happ] at hwaited
  | closeUnconnected =>
      simp only [State.advanceApp, happ, Option.some.injEq] at ht
      subst ht
      exact .closeUnconnected happ
  | waitAck =>
      simp only [State.advanceApp, happ] at ht
      obtain ⟨found, hwait, rfl⟩ := Option.map_eq_some_iff.mp ht
      obtain ⟨hset, rfl⟩ := osEventFlagsWait_eq_some hwait
      refine .acknowledged _ happ hset ?_
      cases herr : isOsFlagsError s.flags
      · exact .inl rfl
      · exact .inr rfl
  | setTerminate =>
      simp only [State.advanceApp, happ, Option.some.injEq] at ht
      subst ht
      refine .terminate _ happ ?_
      cases herr : isOsFlagsError (osEventFlagsSet s.flags (bitMask terminateMqttThread))
      · exact .inl rfl
      · exact .inr rfl
  | waitTerminating =>
      simp only [State.advanceApp, happ] at ht
      obtain ⟨found, hwait, rfl⟩ := Option.map_eq_some_iff.mp ht
      obtain ⟨hset, rfl⟩ := osEventFlagsWait_eq_some hwait
      refine .terminating _ happ hset ?_
      cases herr : isOsFlagsError s.flags
      · exact .inl rfl
      · exact .inr rfl
  | close =>
      simp only [State.advanceApp, happ, Option.some.injEq] at ht
      subst ht
      exact .close happ
  | mqttInit | networkConnect | eventFlagsNew | threadNew | getPacketId | publish
  | threadTerminate | disconnect | returned =>
      simp [State.advanceApp, happ] at ht

theorem moves_advanceBackground (ht : s.advanceBackground = some t) : Moves s t := by
  cases hback : s.background with
  | eventFlagsGet =>
      simp only [State.advanceBackground, hback] at ht
      split at ht
      · next hflag =>
          cases ht
          exact .stop hback hflag
      · cases ht
        exact .processLoop hback
  | puback id =>
      simp only [State.advanceBackground, hback, Option.some.injEq] at ht
      subst ht
      split
      · next hid => exact .matching id hback hid
      · exact .other id hback
  | setAck =>
      simp only [State.advanceBackground, hback, Option.some.injEq] at ht
      subst ht
      exact .setAck hback
  | setTerminating =>
      simp only [State.advanceBackground, hback, Option.some.injEq] at ht
      subst ht
      exact .setTerminating hback
  | none | processLoop | delay | ended => simp [State.advanceBackground, hback] at ht

theorem moves_check {app : AppPc} (hfail : s.app.CanFail) (hnext : s.app.Next app) (ok : Bool) :
    Moves s (s.check ok app) := by
  cases ok
  · exact .fail hfail
  · exact .next app hnext

theorem moves {a : Action} (ht : step s a = some t) : Moves s t := by
  cases a with
  | networkEvent event =>
      cases ht
      dsimp only [State.networkEventCallback]
      split
      · next hlen =>
          refine .network event _ (.inr ⟨rfl, ?_⟩)
          rw [List.length_append]
          exact hlen
      · exact .network event _ (.inl rfl)
  | app => exact moves_advanceApp ht
  | mqttInit ok =>
      obtain ⟨happ, ht⟩ := Option.ite_none_right_eq_some.mp ht
      cases ht
      exact moves_check (by rw [happ]; trivial) (.inl ⟨happ, rfl⟩) ok
  | networkConnect retries tls answers =>
      obtain ⟨happ, ht⟩ := Option.ite_none_right_eq_some.mp ht
      cases ht
      have h := Connects.connect s.network retries tls answers
      dsimp only [State.networkConnect]
      split
      · next hres => exact .unconnected _ happ h hres
      · next hres => exact .connected _ happ h (not_not.mp hres)
  | eventFlagsNew ok =>
      obtain ⟨happ, ht⟩ := Option.ite_none_right_eq_some.mp ht
      cases ht
      exact moves_check (by rw [happ]; trivial) (.inr ⟨happ, rfl⟩) ok
  | threadNew ok =>
      obtain ⟨happ, ht⟩ := Option.ite_none_right_eq_some.mp ht
      cases ht
      dsimp only [State.threadNew]
      split
      · exact .threadNew happ
      · exact .fail (by rw [happ]; trivial)
  | getPacketId id =>
      obtain ⟨happ, ht⟩ := Option.ite_none_right_eq_some.mp ht
      cases ht
      exact .getPacketId id happ
  | publish ok =>
      obtain ⟨happ, ht⟩ := Option.ite_none_right_eq_some.mp ht
      cases ht
      cases ok
      · exact .publish _ happ (.inr rfl)
      · exact .publish _ happ (.inl rfl)
  | threadTerminate ok =>
      obtain ⟨happ, ht⟩ := Option.ite_none_right_eq_some.mp ht
      cases ht
      dsimp only [State.threadTerminate]
      split
      · exact .threadTerminate happ
      · exact .fail (by rw [happ]; trivial)
  | disconnect ok =>
      obtain ⟨happ, ht⟩ := Option.ite_none_right_eq_some.mp ht
      cases ht
      cases ok
      · exact .disconnect _ happ (.inr rfl)
      · exact .disconnect _ happ (.inl rfl)
  | background => exact moves_advanceBackground ht
  | packet puback =>
      obtain ⟨hback, ht⟩ := Option.ite_none_right_eq_some.mp ht
      cases ht
      cases puback with
      | none => exact .packet s.background hback (.inl hback)
      | some id => exact .packet _ hback (.inr (.inr ⟨id, rfl⟩))
  | processed =>
      obtain ⟨hback, ht⟩ := Option.ite_none_right_eq_some.mp ht
      cases ht
      exact .packet _ hback (.inr (.inl rfl))
  | delayed =>
      obtain ⟨hback, ht⟩ := Option.ite_none_right_eq_some.mp ht
      cases ht
      exact .delayed hback

/-! ## Taking down -/

/-- The receive thread has not been created. -/
def AppPc.Early : AppPc → Prop
  | .messageQueueGet | .mqttInit | .networkConnect | .closeUnconnected | .eventFlagsNew
  | .threadNew => True
  | _ => False

/-- `app_task` has done nothing yet that it has to undo. -/
def AppPc.Unconnected : AppPc → Prop
  | .messageQueueGet | .mqttInit | .networkConnect | .closeUnconnected => True
  | _ => False

/-- What the threads may be doing at the same time. -/
def Together (app : AppPc) (background : BackgroundPc) : Prop :=
  (app.Early → background = .none) ∧
    (app.Alone → background = .delay ∨ background = .ended) ∧
    (app.Cleaning → background = .ended)

/-- What the events say about where `app_task` is. -/
structure Recorded (trace : List Event) (app : AppPc) : Prop where
  connected : .connected ∈ trace → ¬ app.Unconnected
  terminated : app.Cleaning → .threadTerminated ∈ trace
  late : .threadTerminated ∈ trace → ¬ app.Early
  closing : app = .close → .disconnect ∈ trace
  disconnected : .disconnect ∈ trace → app = .close ∨ ∃ finished, app = .returned finished
  closed : .close ∈ trace → ∃ finished, app = .returned finished

theorem Recorded.step (h : Recorded s.trace s.app) (hm : Moves s t) : Recorded t.trace t.app := by
  obtain ⟨hconnected, hterminated, hlate, hclosing, hdisconnected, hclosed⟩ := h
  cases hm <;> constructor <;>
    grind [AppPc.Cleaning, AppPc.Unconnected, AppPc.Early, AppPc.Next]

/-- Only the receive thread sets the flag that it terminates, and it stays so. -/
def Signal (s : State) : Prop :=
  isBitSet s.flags mqttThreadTerminating = true → s.background = .delay ∨ s.background = .ended

theorem Together.early_step (h : Together s.app s.background) (hm : Moves s t) :
    t.app.Early → t.background = .none := by
  have hearly := h.1
  cases hm with
  | network | waited => exact hearly
  | up queue happ | unconnected connected happ | connected connected happ =>
      exact fun _ => hearly (by rw [happ]; trivial)
  | next app happ =>
      obtain ⟨happ, -⟩ | ⟨happ, -⟩ := happ <;> exact fun _ => hearly (by rw [happ]; trivial)
  | fail | closeUnconnected | threadNew | getPacketId | threadTerminate | close =>
      exact False.elim
  | publish app happ hnext | acknowledged app happ _ hnext | terminate app happ hnext
  | terminating app happ _ hnext | disconnect app happ hnext =>
      obtain rfl | rfl := hnext <;> exact False.elim
  | stop hback | processLoop hback | packet _ hback | matching _ hback | other _ hback
  | setAck hback | setTerminating hback | delayed hback =>
      exact fun h => absurd (hearly h) (by simp [hback])

theorem Together.alone_step (h : Together s.app s.background) (hsignal : Signal s)
    (hm : Moves s t) : t.app.Alone → t.background = .delay ∨ t.background = .ended := by
  have halone := h.2.1
  cases hm with
  | network | waited => exact halone
  | up | fail | unconnected | connected | closeUnconnected | threadNew | getPacketId =>
      exact False.elim
  | next app happ => obtain ⟨-, rfl⟩ | ⟨-, rfl⟩ := happ <;> exact False.elim
  | publish app happ hnext | acknowledged app happ _ hnext | terminate app happ hnext =>
      obtain rfl | rfl := hnext <;> exact False.elim
  | terminating app happ hflag => exact fun _ => hsignal hflag
  | disconnect app happ | close happ => exact fun _ => halone (by rw [happ]; trivial)
  | stop hback | processLoop hback | packet _ hback | matching _ hback | other _ hback
  | setAck hback | setTerminating hback =>
      exact fun h => absurd (halone h) (by simp [hback])
  | threadTerminate | delayed => exact fun _ => .inr rfl

theorem Together.cleaning_step (h : Together s.app s.background) (hm : Moves s t) :
    t.app.Cleaning → t.background = .ended := by
  have hcleaning := h.2.2
  cases hm with
  | network | waited => exact hcleaning
  | up | fail | unconnected | connected | closeUnconnected | threadNew | getPacketId =>
      exact False.elim
  | next app happ => obtain ⟨-, rfl⟩ | ⟨-, rfl⟩ := happ <;> exact False.elim
  | publish app happ hnext | acknowledged app happ _ hnext | terminate app happ hnext
  | terminating app happ _ hnext =>
      obtain rfl | rfl := hnext <;> exact False.elim
  | disconnect app happ | close happ => exact fun _ => hcleaning (by rw [happ]; trivial)
  | stop hback | processLoop hback | packet _ hback | matching _ hback | other _ hback
  | setAck hback | setTerminating hback =>
      exact fun h => absurd (hcleaning h) (by simp [hback])
  | threadTerminate | delayed => exact fun _ => rfl

theorem Together.step (h : Together s.app s.background) (hsignal : Signal s) (hm : Moves s t) :
    Together t.app t.background :=
  ⟨h.early_step hm, h.alone_step hsignal hm, h.cleaning_step hm⟩

theorem Signal.step (h : Signal s) (htogether : Together s.app s.background) (hm : Moves s t) :
    Signal t := by
  simp only [Signal] at h ⊢
  cases hm with
  | threadNew happ =>
      have hnone : s.background = .none := htogether.1 (by rw [happ]; trivial)
      intro hset
      rcases h hset with hback | hback <;> simp [hnone] at hback
  | acknowledged app happ hflag hnext =>
      rwa [isBitSet_clear_of_ne (by decide) (by decide)]
  | terminate app happ hnext =>
      rwa [isBitSet_set_of_ne (by decide) (by decide)]
  | terminating app happ hflag hnext => exact fun _ => h hflag
  | threadTerminate happ => exact fun _ => .inr rfl
  | setTerminating hback => exact fun _ => .inl rfl
  | delayed hback => exact fun _ => .inr rfl
  | setAck hback =>
      rw [isBitSet_set_of_ne (by decide) (by decide)]
      intro hset
      rcases h hset with hdelay | hdelay <;> simp [hback] at hdelay
  | stop hback | processLoop hback | packet _ hback | matching _ hback | other _ hback =>
      intro hset
      rcases h hset with hdelay | hdelay <;> simp [hback] at hdelay
  | network | waited | up | next | fail | unconnected | connected | closeUnconnected
  | getPacketId | publish | disconnect | close => exact h

/-- Once something has been taken down, no receive thread is left. -/
def Down (s : State) : Prop :=
  .threadTerminated ∈ s.trace ∨ .disconnect ∈ s.trace ∨ .close ∈ s.trace →
    s.background = .none ∨ s.background = .ended

theorem Down.step (h : Down s) (htogether : Together s.app s.background)
    (hrecorded : Recorded s.trace s.app) (hm : Moves s t) : Down t := by
  obtain ⟨hearly, halone, hcleaning⟩ := htogether
  obtain ⟨-, -, hlate, -, hdisconnected, hclosed⟩ := hrecorded
  simp only [Down] at h ⊢
  cases hm <;> grind [AppPc.Early, AppPc.Cleaning]

/-! ### The connection -/

theorem idle_close {network : NetworkContext} (h : network.Idle ∨ ∃ socket, network.Holds socket) :
    network.close.Idle := by
  rcases h with h | ⟨socket, h⟩
  · have hclose : network.close = { network with secured := none, socketFd := iotSocketEsock } :=
      if_neg (not_not_intro h.fd)
    rw [hclose]
    exact ⟨rfl, rfl, h.balanced⟩
  · have hclose : network.close = { network with secured := none }.closeSocket := if_pos h.fd
    rw [hclose]
    exact ⟨rfl, rfl, h.close_balanced⟩

/-- `app_task` leaves what it has. -/
theorem Connection.fail {network : NetworkContext} {app : AppPc} (h : Connection network app) :
    Connection network (.returned false) := by
  cases app with
  | messageQueueGet | mqttInit | networkConnect | closeUnconnected => exact .inl h
  | returned finished =>
      cases finished
      · exact h
      · exact .inl h
  | _ => exact .inr h

theorem Connection.step (h : Connection s.network s.app) (hm : Moves s t) :
    Connection t.network t.app := by
  cases hm with
  | unconnected connected happ hconnects hres =>
      rw [happ] at h
      exact hconnects.idle h hres
  | connected connected happ hconnects hres =>
      rw [happ] at h
      exact hconnects.holds h hres
  | closeUnconnected happ =>
      rw [happ] at h
      exact .inl (idle_close (.inl h))
  | close happ =>
      rw [happ] at h
      exact idle_close (.inr h)
  | next app happ =>
      obtain ⟨happ, rfl⟩ | ⟨happ, rfl⟩ := happ <;> rw [happ] at h <;> exact h
  | publish app happ hnext | acknowledged app happ _ hnext | terminate app happ hnext
  | terminating app happ _ hnext | disconnect app happ hnext =>
      obtain rfl | rfl := hnext
      · rw [happ] at h
        exact h
      · exact h.fail
  | fail happ => exact h.fail
  | up queue happ hqueue | threadNew happ | getPacketId id happ | threadTerminate happ =>
      rw [happ] at h
      exact h
  | network | waited | stop | processLoop | packet | matching | other | setAck | setTerminating
  | delayed => exact h

/-! ### Every run -/

structure Inv (s : State) : Prop where
  together : Together s.app s.background
  signal : Signal s
  recorded : Recorded s.trace s.app
  down : Down s
  connection : Connection s.network s.app
  order : History.Along InOrder s.trace

theorem inOrder_of_ne {event : Event} {before : List Event} (hloop : event ≠ .processLoop)
    (hpuback : ∀ id, event ≠ .puback id) (hdisconnect : event ≠ .disconnect)
    (hclose : event ≠ .close) : InOrder event before where
  receive := fun h => h.elim (fun h => absurd h hloop) fun ⟨id, h⟩ => absurd h (hpuback id)
  disconnect := fun h => absurd h hdisconnect
  close := fun h => absurd h hclose

theorem Down.running (h : Down s) (hne : s.background ≠ .none ∧ s.background ≠ .ended) :
    .threadTerminated ∉ s.trace ∧ .disconnect ∉ s.trace ∧ .close ∉ s.trace := by
  refine ⟨fun hmem => ?_, fun hmem => ?_, fun hmem => ?_⟩
  · exact (h (.inl hmem)).elim hne.1 hne.2
  · exact (h (.inr (.inl hmem))).elim hne.1 hne.2
  · exact (h (.inr (.inr hmem))).elim hne.1 hne.2

theorem Inv.order_step (h : Inv s) (hm : Moves s t) : History.Along InOrder t.trace := by
  have horder := h.order
  cases hm with
  | network | connected | getPacketId | publish | threadTerminate =>
      exact ⟨inOrder_of_ne nofun nofun nofun nofun, horder⟩
  | closeUnconnected happ =>
      refine ⟨⟨nofun, nofun, fun _ => ⟨fun hmem => ?_, fun hmem => ?_⟩⟩, horder⟩
      · obtain ⟨finished, hreturned⟩ := h.recorded.closed hmem
        rw [happ] at hreturned
        cases hreturned
      · exact absurd (by rw [happ]; trivial) (h.recorded.connected hmem)
  | disconnect app happ hnext =>
      refine ⟨⟨nofun, fun _ => ⟨h.recorded.terminated (by rw [happ]; trivial), fun hmem => ?_⟩,
        nofun⟩, horder⟩
      rcases h.recorded.disconnected hmem with hclose | ⟨finished, hreturned⟩
      · rw [happ] at hclose
        cases hclose
      · rw [happ] at hreturned
        cases hreturned
  | close happ =>
      refine ⟨⟨nofun, nofun, fun _ => ⟨fun hmem => ?_, fun _ => h.recorded.closing happ⟩⟩, horder⟩
      obtain ⟨finished, hreturned⟩ := h.recorded.closed hmem
      rw [happ] at hreturned
      cases hreturned
  | processLoop hback | matching id hback hid | other id hback =>
      have hrunning := h.down.running (by rw [hback]; exact ⟨nofun, nofun⟩)
      exact ⟨⟨fun _ => hrunning, nofun, nofun⟩, horder⟩
  | waited | up | next | fail | unconnected | threadNew | acknowledged | terminate | terminating
  | stop | packet | setAck | setTerminating | delayed => exact horder

theorem Inv.step (h : Inv s) (hm : Moves s t) : Inv t where
  together := h.together.step h.signal hm
  signal := h.signal.step h.together hm
  recorded := h.recorded.step hm
  down := h.down.step h.together h.recorded hm
  connection := h.connection.step hm
  order := h.order_step hm

theorem inv_init : Inv init where
  together := ⟨fun _ => rfl, nofun, nofun⟩
  signal := by
    intro hset
    exact absurd hset (by decide)
  recorded := ⟨nofun, nofun, nofun, nofun, nofun, nofun⟩
  down := by
    rintro (hmem | hmem | hmem) <;> cases hmem
  connection := idle_initial
  order := trivial

/-- In every order of the steps of the threads, and whatever is answered: the MQTT session and the
connection are taken down after the receive thread was terminated outside of `MQTT_ProcessLoop`. -/
theorem exclusive_always (acts : List Action) : Always step Exclusive init acts :=
  .of_inductive Inv (fun _ _ _ h ht => h.step (moves ht))
    (fun _ h => ⟨h.together.2.1, h.together.2.2, h.connection, h.order⟩) inv_init acts

end OpenIotSdk.Aws.Client
