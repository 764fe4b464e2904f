import ToolAgent.Integration.Sessions
import ToolAgent.TauBench.Airline.Steps

/-!
# What the airline keeps of its arguments

`book_reservation` makes the list of payments that it is called with the history of the new
reservation, and `cancel_reservation` and the updates that cost something append to the history. So
a booking whose arguments are held elsewhere too, by a task or by a record, is a booking whose
arguments change when the reservation is cancelled: the next booking with them does not add up.

Everything else is copied, or replaced and never written to.

## The model

A tool acts on the database as it does on one that shares nothing. The reservations that have the
payments of shared arguments as their history are listed with the address of these arguments. What a
call appends to such a history is appended to the arguments, and all reservations that share it are
read anew.

How keyword arguments become a call and how a reply becomes a text are parameters. A call that does
not bind raises before the tool runs, where the source would run the tool on arguments of other types
than the declared ones.

## Main definitions

* `tool`, `domain` — a tool of the environment, and `MockAirlineDomainEnv`
* `writeThrough`, `refreshed` — what is written to shared arguments, and what is read from them

## Main results

* `tool_own` — with arguments of its own, a tool of a database that shares nothing keeps nothing
* `cancel_disturbs` — to cancel a reservation that shares its payments changes the arguments
* `rollout_not_isolated` — two rollouts of one task, of which only the first one is rewarded
-/

namespace ToolAgent

namespace Airline

open Python Prog Tables

open TauBench (Args Kwargs Memory Shared)

/-! ### Payments in arguments -/

/-- A number of a document. Integers are not told from floats that have no fraction. -/
def amountVal (q : ℚ) : PyVal := if q.den = 1 then .int q.num else .float (.fin q)

def Payment.toVal (payment : Payment) : PyVal :=
  .dict [("payment_id", .str payment.payment_id), ("amount", amountVal payment.amount)]

/-- `payment_methods.extend(payments)`, in a dictionary of arguments. -/
def extendPayments (payments : List Payment) (kwargs : Kwargs) : Kwargs :=
  match dictGet kwargs "payment_methods" with
  | .list vs => dictSet kwargs "payment_methods" (.list (vs ++ payments.map Payment.toVal))
  | _ => kwargs

/-- The history of a reservation, if it is there. -/
def Db.history (db : Db) (reservation_id : PyStr) : List Payment :=
  ((db.reservations.get? reservation_id).map Reservation.payment_history).getD []

/-- What a call has appended to the history of a reservation. -/
def appended (before after : Db) (reservation_id : PyStr) : List Payment :=
  (after.history reservation_id).drop (before.history reservation_id).length

/-- What a call has appended to the history of a reservation is in the arguments that share it. -/
def writeThrough (before after : Db) (shared : Shared) (link : PyStr × ℕ) : Shared :=
  Function.update shared link.2 (extendPayments (appended before after link.1) (shared link.2))

/-! ### The environment -/

/-- How keyword arguments become a call, and how a reply becomes a text. -/
structure Interface where
  bind : PyStr → Kwargs → Except PyErr Call
  name_of_bind : ∀ name kwargs call, bind name kwargs = .ok call → call.name = name
  render : Reply → PyStr

/-- The names of `ALL_TOOLS`. -/
def toolNames : List PyStr :=
  ["book_reservation", "calculate", "cancel_reservation", "get_reservation_details",
    "get_user_details", "list_all_airports", "search_direct_flight", "search_onestop_flight",
    "send_certificate", "think", "transfer_to_human_agents", "update_reservation_baggages",
    "update_reservation_flights", "update_reservation_passengers"]

variable (texts : Texts) (interface : Interface)

/-- The payments in arguments, as a booking reads them. -/
def paymentsIn (kwargs : Kwargs) : Option (List Payment) :=
  match interface.bind "book_reservation" kwargs with
  | .ok (.bookReservation booking) => some booking.payment_methods
  | _ => none

/-- A reservation whose history is read from the arguments that share it. -/
def readThrough (shared : Shared) (db : Db) (link : PyStr × ℕ) : Db :=
  match paymentsIn interface (shared link.2), db.reservations.get? link.1 with
  | some payments, some reservation =>
    { db with reservations :=
        db.reservations.set link.1 { reservation with payment_history := payments } }
  | _, _ => db

/-- The database as it reads now. -/
def refreshed (memory : Memory Db) : Db :=
  memory.links.foldl (readThrough interface memory.shared) memory.data

/-- The memory after a call with the arguments `args`, which has replied and left a database. -/
def leave (memory : Memory Db) (args : Args) (call : Call) (out : Except PyErr Reply × Db) :
    Memory Db :=
  match call, out.1 with
  | .bookReservation _, .ok (.reservation reservation) =>
    let links := memory.links.filter (·.1 ≠ reservation.reservation_id)
    match args with
    | .own _ => ⟨out.2, links, memory.shared⟩
    | .shared address => ⟨out.2, (reservation.reservation_id, address) :: links, memory.shared⟩
  | _, _ =>
    let shared := memory.links.foldl (writeThrough memory.data out.2) memory.shared
    { memory with data := refreshed interface ⟨out.2, memory.links, shared⟩, shared := shared }

/-- A tool of the environment. -/
def tool (name : PyStr) : TauBench.Tool Db := fun args memory =>
  match interface.bind name (memory.read args) with
  | .error e => (.error e, memory)
  | .ok call =>
    let out := invoke texts call memory.data
    (out.1.map interface.render, leave interface memory args call out)

/-- `MockAirlineDomainEnv`, for one task. -/
def domain {υ : Type} (data_load : Db) (task : TauBench.Task) (user : TauBench.User υ)
    (data_hash : Db → Except PyErr PyStr) : TauBench.Domain Db υ where
  data_load := data_load
  tools_map := toolNames.map fun name => (name, tool texts interface name)
  terminate_tools := ["transfer_to_human_agents"]
  task := task
  user := user
  data_hash := data_hash
  refresh := refreshed interface

/-! ### Arguments of their own -/

/-- A tool that shares nothing. -/
def plainTool (name : PyStr) (kwargs : Kwargs) : Prog PyErr Db PyStr := do
  let call ← lift (interface.bind name kwargs)
  let reply ← invoke texts call
  pure (interface.render reply)

section Own

variable {texts interface} {memory : Memory Db} {kwargs : Kwargs}

/-- A call with arguments of its own shares nothing that was not shared before. -/
theorem leave_own (h : memory.links = []) (call : Call) (out : Except PyErr Reply × Db) :
    leave interface memory (.own kwargs) call out = { memory with data := out.2 } := by
  obtain ⟨data, links, shared⟩ := memory
  obtain rfl : links = [] := h
  obtain ⟨reply, db⟩ := out
  cases call with
  | bookReservation booking =>
    rcases reply with e | reply
    · rfl
    · cases reply <;> rfl
  | _ => rfl

/-- **Arguments of their own**: in a database that shares nothing, a tool that is called with
arguments that nobody else holds is one that keeps nothing of them. -/
theorem tool_own (h : memory.links = []) (name : PyStr) :
    tool texts interface name (.own kwargs) memory =
      TauBench.byValue (plainTool texts interface name) (.own kwargs) memory := by
  have hread : memory.read (.own kwargs) = kwargs := rfl
  rw [tool, TauBench.byValue, hread]
  rcases hbind : interface.bind name kwargs with e | call
  · rw [plainTool, hbind]
    rfl
  · have hplain : plainTool texts interface name kwargs =
        invoke texts call >>= fun reply => pure (interface.render reply) := by
      rw [plainTool, hbind]
      rfl
    dsimp only
    rw [leave_own h, hplain, bind_run]
    rcases invoke texts call memory.data with ⟨e | reply, db⟩
    · rfl
    · rfl

end Own

/-! ### Histories that are shared -/

section Histories

variable {before after : Db} {links : List (PyStr × ℕ)} {shared : Shared} {address : ℕ}

/-- Arguments that share no history are left as they were. -/
theorem writeThrough_of_ne {link : PyStr × ℕ} (h : link.2 ≠ address) :
    writeThrough before after shared link address = shared address :=
  Function.update_of_ne h.symm _ _

theorem foldl_writeThrough_of_notMem (h : address ∉ links.map Prod.snd) :
    links.foldl (writeThrough before after) shared address = shared address := by
  induction links generalizing shared with
  | nil => rfl
  | cons link links ih =>
    rw [List.map_cons, List.mem_cons, not_or] at h
    exact (ih h.2).trans (writeThrough_of_ne (Ne.symm h.1))

/-- Arguments that share the history of one reservation get what is appended to it. -/
theorem foldl_writeThrough_of_mem (hnodup : (links.map Prod.snd).Nodup) {reservation_id : PyStr}
    (hmem : (reservation_id, address) ∈ links) :
    links.foldl (writeThrough before after) shared address =
      extendPayments (appended before after reservation_id) (shared address) := by
  induction links generalizing shared with
  | nil => exact absurd hmem List.not_mem_nil
  | cons link links ih =>
    rw [List.map_cons, List.nodup_cons] at hnodup
    rw [List.foldl_cons]
    rcases List.mem_cons.mp hmem with rfl | hmem
    · rw [foldl_writeThrough_of_notMem hnodup.1]
      exact Function.update_self _ _ _
    · have hne : link.2 ≠ address := fun h => hnodup.1 (h ▸ List.mem_map_of_mem hmem)
      rw [ih hnodup.2 hmem, writeThrough_of_ne hne]

/-- What a cancellation appends. -/
theorem appended_cancel {texts : Texts} {db : Db} {reservation_id : PyStr}
    {reservation : Reservation}
    (h : db.reservations.get? reservation_id = some reservation) :
    appended db (invoke texts (.cancelReservation reservation_id) db).2 reservation_id =
      reservation.payment_history.map fun payment => ⟨payment.payment_id, -payment.amount⟩ := by
  have hafter : (invoke texts (.cancelReservation reservation_id) db).2 =
      { db with reservations := db.reservations.set reservation_id reservation.cancel } := by
    show (checked (entryOr db.reservations reservation_id _) _ db).2 = _
    rw [checked_ok (entryOr_eq_ok.mpr h)]
    rfl
  rw [hafter, appended, Db.history, Db.history, h, Table.get?_set_self]
  exact List.drop_left' rfl

/-- Payments that are appended to arguments are there. -/
theorem extendPayments_ne {payments : List Payment} (h : payments ≠ []) {kwargs : Kwargs}
    {vs : List PyVal} (hlist : dictGet kwargs "payment_methods" = .list vs) :
    extendPayments payments kwargs ≠ kwargs := by
  intro heq
  have hsame := congrArg (dictGet · "payment_methods") heq
  rw [extendPayments, hlist] at hsame
  dsimp only at hsame
  rw [dictGet_dictSet_self, PyVal.list.injEq, List.append_right_eq_self,
    List.map_eq_nil_iff] at hsame
  exact h hsame

/-- **To cancel a reservation that shares its payments changes the arguments** of the booking: the
refunds are among its payments then. -/
theorem cancel_disturbs {texts : Texts} {interface : Interface} {name : PyStr} {args : Args}
    {memory : Memory Db} {reservation_id : PyStr} {reservation : Reservation} {vs : List PyVal}
    (hbind : interface.bind name (memory.read args) = .ok (.cancelReservation reservation_id))
    (hreservation : memory.data.reservations.get? reservation_id = some reservation)
    (hpaid : reservation.payment_history ≠ []) (hnodup : (memory.links.map Prod.snd).Nodup)
    (hmem : (reservation_id, address) ∈ memory.links)
    (hlist : dictGet (memory.shared address) "payment_methods" = .list vs) :
    let refunds := reservation.payment_history.map fun payment : Payment =>
      (⟨payment.payment_id, -payment.amount⟩ : Payment)
    (tool texts interface name args memory).2.shared address =
        extendPayments refunds (memory.shared address) ∧
      (tool texts interface name args memory).2.shared address ≠ memory.shared address := by
  intro refunds
  have hrefunds : refunds ≠ [] := fun h => hpaid (List.map_eq_nil_iff.mp h)
  have hshared : (tool texts interface name args memory).2.shared address =
      extendPayments refunds (memory.shared address) := by
    rw [tool, hbind]
    show memory.links.foldl (writeThrough memory.data _) memory.shared address = _
    rw [foldl_writeThrough_of_mem hnodup hmem, appended_cancel hreservation]
  exact ⟨hshared, hshared ▸ extendPayments_ne hrefunds hlist⟩

end Histories

/-! ### Two rollouts of one task -/

def textOf : PyVal → Except PyErr PyStr
  | .str s => .ok s
  | _ => throw .typeError "invoke() got an argument that is no string"

def countOf : PyVal → Except PyErr ℤ
  | .int n => .ok n
  | _ => throw .typeError "invoke() got an argument that is no integer"

def listOf {α : Type} (f : Kwargs → Except PyErr α) : PyVal → Except PyErr (List α)
  | .list vs => vs.mapM fun v =>
    match v with
    | .dict items => f items
    | _ => throw .typeError "invoke() got an element that is no dictionary"
  | _ => throw .typeError "invoke() got an argument that is no list"

def flightOf (items : Kwargs) : Except PyErr FlightRef := do
  .ok ⟨← textOf (dictGet items "flight_number"), ← textOf (dictGet items "date")⟩

def paymentOf (items : Kwargs) : Except PyErr Payment := do
  .ok ⟨← textOf (dictGet items "payment_id"), ← countOf (dictGet items "amount")⟩

def bookingOf (kwargs : Kwargs) : Except PyErr Booking := do
  .ok {
    user_id := ← textOf (dictGet kwargs "user_id")
    origin := ← textOf (dictGet kwargs "origin")
    destination := ← textOf (dictGet kwargs "destination")
    flight_type := ← textOf (dictGet kwargs "flight_type")
    cabin := ← textOf (dictGet kwargs "cabin")
    flights := ← listOf flightOf (dictGet kwargs "flights")
    passengers := ← listOf pure (dictGet kwargs "passengers")
    payment_methods := ← listOf paymentOf (dictGet kwargs "payment_methods")
    total_baggages := ← countOf (dictGet kwargs "total_baggages")
    nonfree_baggages := ← countOf (dictGet kwargs "nonfree_baggages")
    insurance := ← textOf (dictGet kwargs "insurance") }

def bindCall (name : PyStr) (kwargs : Kwargs) : Except PyErr Call :=
  if name = "book_reservation" then (bookingOf kwargs).map .bookReservation
  else if name = "cancel_reservation" then
    (textOf (dictGet kwargs "reservation_id")).map .cancelReservation
  else if name = "transfer_to_human_agents" then
    (textOf (dictGet kwargs "summary")).map .transferToHumanAgents
  else throw .typeError "invoke() got an unexpected keyword argument"

/-- Bookings, cancellations and transfers, with amounts in whole dollars. -/
def sampleInterface : Interface where
  bind := bindCall
  name_of_bind name kwargs call h := by
    rw [bindCall] at h
    split at h
    · next hname =>
      obtain ⟨booking, -, rfl⟩ := map_eq_ok.mp h
      exact hname.symm
    · split at h
      · next hname =>
        obtain ⟨reservation_id, -, rfl⟩ := map_eq_ok.mp h
        exact hname.symm
      · split at h
        · next hname =>
          obtain ⟨summary, -, rfl⟩ := map_eq_ok.mp h
          exact hname.symm
        · cases h
  render
    | .error text | .text text => text
    | _ => []

/-- A booking of one seat, that is paid with a gift card. -/
def sampleKwargs : Kwargs :=
  [("user_id", .str "chen_jackson_3290"), ("origin", .str "DFW"), ("destination", .str "LAX"),
    ("flight_type", .str "one_way"), ("cabin", .str "economy"),
    ("flights", .list [.dict [("flight_number", .str "HAT170"), ("date", .str "2024-05-22")]]),
    ("passengers", .list [.dict [("first_name", .str "Chen"), ("last_name", .str "Jackson")]]),
    ("payment_methods", .list [.dict [("payment_id", .str "gift_card_3576581"), ("amount", .int 80)]]),
    ("total_baggages", .int 0), ("nonfree_baggages", .int 0), ("insurance", .str "no")]

/-- Book a seat, and cancel it again. -/
def bookAndCancel : TauBench.Task where
  user_id := "chen_jackson_3290"
  actions := [⟨"book_reservation", .shared 0⟩,
    ⟨"cancel_reservation", .own [("reservation_id", .str "HATHAT")]⟩]
  instruction := "Book a seat, and cancel it again."
  outputs := []

/-- A hash that tells how many payments and refunds every reservation has. -/
def countPayments (db : Db) : Except PyErr PyStr :=
  .ok (db.reservations.items.map fun item => item.2.payment_history.length)

/-- Two rollouts of `bookAndCancel`, and both do what the task says. -/
def bookings (i : Bool) : Integration.Rollout Db Unit where
  instance_id := if i then "second" else "first"
  task_id := 0
  dom := domain sampleTexts sampleInterface sampleDb bookAndCancel
    ⟨fun _ => pure "Book me a seat.", fun _ => pure "Thanks.", fun _ => 0⟩ countPayments
  user := ()
  next log :=
    match log with
    | [] => some (.start_interaction [])
    | [_] => some (.execute "book_reservation" (.value (.dict sampleKwargs)))
    | [_, _] => some (.execute "cancel_reservation" (.value (.dict [("reservation_id", .str "HATHAT")])))
    | [_, _, _] => some (.execute "transfer_to_human_agents" (.value (.dict [("summary", .str "done")])))
    | _ => none

def bookingsSetup : Integration.Setup := ⟨.silent, 9, 24, false, fun _ => []⟩

def bookingsWorld : Integration.World Db Unit where
  envs _ := ⟨(bookings false).dom, ⟨⟨sampleDb, [], fun _ => []⟩, [], ()⟩⟩
  states _ := Integration.makeInitialState ⟨[], [], 0, 0⟩
  instance_dict _ := none
  next := 0
  shared _ := sampleKwargs

/-- What the second rollout sees after a schedule. -/
def second (schedule : List Bool) : Integration.View Db Unit :=
  Integration.view bookings true (Interleaving.run
    (Integration.rolloutsStep bookingsSetup bookings)
      (Integration.initialConfig bookingsWorld) schedule)

def rewardOf (view : Integration.View Db Unit) : Option ℚ :=
  view.session.map fun session => session.state.total_reward

/-- **A rollout does not stand where it would stand alone**: the reward of the first one replays the
booking and the cancellation with the arguments of the task, and with the refund among its payments
the booking is refused when the reward of the second one replays it. -/
theorem rollout_not_isolated :
    (Function.Injective fun i => (bookings i).instance_id) ∧
      (∀ i, bookingsWorld.instance_dict (bookings i).instance_id = none) ∧
      ∃ schedule, second schedule ≠ second (schedule.filter (· = true)) ∧
        rewardOf (second schedule) = some 0 ∧
        rewardOf (second (schedule.filter (· = true))) = some 1 := by
  have hinterleaved : rewardOf (second (List.replicate 6 false ++ List.replicate 6 true)) =
      some 0 := by
    decide +kernel
  have halone : rewardOf (second ((List.replicate 6 false ++ List.replicate 6 true).filter (· = true))) =
      some 1 := by decide +kernel
  refine ⟨?_, fun _ => rfl, _, fun heq => ?_, hinterleaved, halone⟩
  · intro i j h
    rcases i with - | - <;> rcases j with - | - <;> first | rfl | cases h
  · rw [heq, halone] at hinterleaved
    exact absurd hinterleaved (by decide +kernel)

end Airline

end ToolAgent
