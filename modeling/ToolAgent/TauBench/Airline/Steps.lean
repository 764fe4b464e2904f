import ToolAgent.TauBench.Airline.Tools
import ToolAgent.Library.Runs

/-!
# What a call does to the airline database

A call changes the database in one of six ways or not at all. `Step` lists them with what the checks
have established, `invoke_step` says that the list is complete, and the invariants of the database
are read off it.

## Main results

* `invoke_step` — what a call can do
* `payAll_ok_iff` — a booking that passes its checks is paid unless a certificate is listed twice
* `get?_payAll` — what the payments leave of each method
-/

namespace ToolAgent

namespace Airline

open Python Prog Tables

/-! ### Checks -/

section Checks

variable {α β : Type}

theorem checked_ok {checks : Except Halt α} {a : α} (h : checks = .ok a) (writes : α → Tool) :
    checked checks writes = writes a := by
  rw [h]
  rfl

/-- A check that stops a tool leaves the database. -/
theorem checked_error {checks : Except Halt α} {halt : Halt} (h : checks = .error halt)
    (writes : α → Tool) (db : Db) : (checked checks writes db).2 = db := by
  rw [h]
  cases halt <;> rfl

theorem entryOr_eq_ok {table : Table PyStr β} {key text : PyStr} {v : β} :
    entryOr table key text = .ok v ↔ table.get? key = some v := by
  rw [entryOr]
  split <;> simp_all

theorem entry_eq_ok {table : Table PyStr β} {key : PyStr} {v : β} :
    entry table key = .ok v ↔ table.get? key = some v := by
  rw [entry]
  split <;> simp_all

theorem require_eq_ok {condition : Bool} {text : PyStr} :
    require condition text = .ok () ↔ condition = true := by
  rw [require]
  split <;> simp_all

theorem exists_checkPayment {methods : Table PyStr PaymentMethod} {payment : Payment}
    (h : checkPayment methods payment = .ok ()) :
    ∃ method, methods.get? payment.payment_id = some method := by
  obtain ⟨method, hmethod, -⟩ := bind_eq_ok.mp h
  exact ⟨method, entryOr_eq_ok.mp hmethod⟩

/-- A gift card that is charged covers the price. -/
theorem le_of_checkMethod {methods : Table PyStr PaymentMethod} {payment_id id : PyStr}
    {price amount : ℚ} (h : checkMethod methods payment_id price = .ok ())
    (hget : methods.get? payment_id = some (.giftCard id amount)) : price ≤ amount := by
  obtain ⟨method, hmethod, h⟩ := bind_eq_ok.mp h
  rw [entryOr_eq_ok, hget] at hmethod
  obtain rfl := Option.some.inj hmethod
  simpa using require_eq_ok.mp h

end Checks

/-! ### Payments -/

section Payments

variable {methods methods' : Table PyStr PaymentMethod} {payments : List Payment} {id : PyStr}

/-- The payments of a list that name one method. -/
def paidWith (id : PyStr) (payments : List Payment) : ℚ :=
  paid (payments.filter (·.payment_id = id))

@[simp] theorem paidWith_nil (id : PyStr) : paidWith id [] = 0 := rfl

theorem paidWith_cons (id : PyStr) (payment : Payment) (payments : List Payment) :
    paidWith id (payment :: payments) =
      (if payment.payment_id = id then payment.amount else 0) + paidWith id payments := by
  rw [paidWith, paidWith, List.filter_cons]
  by_cases h : payment.payment_id = id
  · rw [if_pos (by simpa using h), if_pos h, paid, paid, List.map_cons, List.sum_cons]
  · rw [if_neg (by simpa using h), if_neg h, zero_add]

/-- What the payments leave of one method. -/
def spend (payments : List Payment) (id : PyStr) : PaymentMethod → Option PaymentMethod
  | .giftCard card amount => some (.giftCard card (amount - paidWith id payments))
  | .certificate card amount =>
    if (payments.map Payment.payment_id).contains id then none else some (.certificate card amount)
  | .creditCard card brand last_four => some (.creditCard card brand last_four)

theorem payAll_cons {payment : Payment} (h : payOne payment methods = (.ok (), methods')) :
    payAll (payment :: payments) methods = payAll payments methods' :=
  bind_run_of_ok h

/-- One payment, seen from one method. -/
theorem get?_payOne {payment : Payment} (h : payOne payment methods = (.ok (), methods'))
    (id : PyStr) : methods'.get? id = (methods.get? id).bind (spend [payment] id) := by
  have hspend (m : PaymentMethod) (hne : payment.payment_id ≠ id) :
      spend [payment] id m = some m := by
    have hzero : paidWith id [payment] = 0 := by
      rw [paidWith_cons, if_neg hne, paidWith_nil, add_zero]
    cases m with
    | giftCard card amount => rw [spend, hzero, sub_zero]
    | certificate card amount => exact if_neg (by simpa using Ne.symm hne)
    | creditCard card brand last_four => rfl
  have hother (hne : payment.payment_id ≠ id) :
      (methods.get? id).bind (spend [payment] id) = methods.get? id := by
    cases methods.get? id with
    | none => rfl
    | some m => exact hspend m hne
  rw [payOne] at h
  by_cases heq : payment.payment_id = id
  · subst heq
    have hpaid : paidWith payment.payment_id [payment] = payment.amount := by
      rw [paidWith_cons, if_pos rfl, paidWith_nil, add_zero]
    split at h
    · next card amount hget =>
      obtain ⟨-, rfl⟩ := Prod.mk.inj h
      rw [hget, Table.get?_set_self, Option.bind_some, spend, hpaid]
    · next card amount hget =>
      obtain ⟨-, rfl⟩ := Prod.mk.inj h
      rw [hget, Table.get?_erase, if_pos rfl, Option.bind_some, spend, if_pos (by simp)]
    · next card brand last_four hget =>
      obtain ⟨-, rfl⟩ := Prod.mk.inj h
      rw [hget]
      rfl
    · cases h
  · rw [hother heq]
    split at h
    · obtain ⟨-, rfl⟩ := Prod.mk.inj h
      exact Table.get?_set_of_ne (Ne.symm heq)
    · obtain ⟨-, rfl⟩ := Prod.mk.inj h
      rw [Table.get?_erase, if_neg (Ne.symm heq)]
    · obtain ⟨-, rfl⟩ := Prod.mk.inj h
      rfl
    · cases h

theorem payOne_ok_iff {payment : Payment} :
    (∃ methods', payOne payment methods = (.ok (), methods')) ↔
      (methods.get? payment.payment_id).isSome := by
  rw [payOne]
  split <;> simp_all

/-- Two payments one after the other, seen from one method. -/
theorem spend_cons (payment : Payment) (payments : List Payment) (id : PyStr) (m : PaymentMethod) :
    (spend [payment] id m).bind (spend payments id) = spend (payment :: payments) id m := by
  cases m with
  | giftCard card amount =>
    rw [spend, Option.bind_some, spend, spend, paidWith_cons, paidWith_cons id payment payments]
    rw [paidWith_nil, add_zero, sub_sub]
  | certificate card amount =>
    rw [spend, spend, List.map_cons, List.map_cons, List.map_nil]
    by_cases h : id = payment.payment_id
    · rw [if_pos (by simp [h]), if_pos (by simp [h])]
      rfl
    · rw [if_neg (by simpa using h), Option.bind_some, spend]
      simp only [List.contains_cons, beq_iff_eq, h, Bool.or_eq_true, false_or]
  | creditCard card brand last_four => rfl

/-- **What the payments leave of each method.** -/
theorem get?_payAll (h : payAll payments methods = (.ok (), methods')) (id : PyStr) :
    methods'.get? id = (methods.get? id).bind (spend payments id) := by
  induction payments generalizing methods with
  | nil =>
    obtain ⟨-, rfl⟩ := Prod.mk.inj h
    cases methods.get? id with
    | none => rfl
    | some m =>
      cases m with
      | giftCard card amount => rw [Option.bind_some, spend, paidWith_nil, sub_zero]
      | certificate card amount => rfl
      | creditCard card brand last_four => rfl
  | cons payment payments ih =>
    obtain ⟨_, methods₁, hone, hrest⟩ := bind_run_ok.mp h
    rw [ih hrest, get?_payOne hone]
    cases methods.get? id with
    | none => rfl
    | some m => exact spend_cons payment payments id m

/-- One method can pay what the list wants from it: a certificate pays once. -/
def Payable (methods : Table PyStr PaymentMethod) (payments : List Payment) (id : PyStr) : Prop :=
  match methods.get? id with
  | none => id ∉ payments.map Payment.payment_id
  | some (.certificate ..) => (payments.map Payment.payment_id).count id ≤ 1
  | some _ => True

theorem payable_cons {payment : Payment} (h : payOne payment methods = (.ok (), methods'))
    (id : PyStr) : Payable methods' payments id ↔ Payable methods (payment :: payments) id := by
  have hsome : (methods.get? payment.payment_id).isSome := payOne_ok_iff.mp ⟨methods', h⟩
  rw [Payable, Payable, get?_payOne h, List.map_cons]
  rcases hget : methods.get? id with _ | (_ | _ | _)
  · have hne : id ≠ payment.payment_id := fun heq => by simp [← heq, hget] at hsome
    simp [hne]
  · simp [spend]
  · simp [spend]
  · by_cases heq : id = payment.payment_id
    · subst heq
      simp [spend, List.count_eq_zero]
    · simp [spend, heq, List.count_cons_of_ne (Ne.symm heq)]

/-- **When the payments go through.** -/
theorem payAll_ok_iff : (∃ methods', payAll payments methods = (.ok (), methods')) ↔
    ∀ id, Payable methods payments id := by
  induction payments generalizing methods with
  | nil =>
    refine ⟨fun _ id => ?_, fun _ => ⟨methods, rfl⟩⟩
    rw [Payable]
    split <;> simp
  | cons payment payments ih =>
    by_cases hsome : (methods.get? payment.payment_id).isSome
    · obtain ⟨methods₁, hone⟩ := payOne_ok_iff.mpr hsome
      rw [payAll_cons hone, ih]
      exact forall_congr' (payable_cons hone)
    · constructor
      · rintro ⟨methods', h⟩
        obtain ⟨_, methods₁, hone, -⟩ := bind_run_ok.mp h
        exact absurd (payOne_ok_iff.mp ⟨methods₁, hone⟩) hsome
      · intro h
        have hnone : methods.get? payment.payment_id = none := by simpa using hsome
        have hlisted := h payment.payment_id
        rw [Payable, hnone] at hlisted
        exact absurd (List.mem_map_of_mem List.mem_cons_self) hlisted

/-- Payments with distinct methods that are all there go through. -/
theorem payable_of_nodup (hnodup : (payments.map Payment.payment_id).Nodup)
    (h : ∀ payment ∈ payments, ∃ method, methods.get? payment.payment_id = some method)
    (id : PyStr) :
    Payable methods payments id := by
  rw [Payable]
  split
  · next hnone =>
    intro hmem
    obtain ⟨payment, hpayment, rfl⟩ := List.mem_map.mp hmem
    obtain ⟨method, hmethod⟩ := h payment hpayment
    rw [hnone] at hmethod
    cases hmethod
  · exact List.nodup_iff_count.mp hnodup id
  · trivial

end Payments

/-! ### One call -/

/-- A reservation after an update, and the price of the update. -/
inductive Updated (r : Reservation) : Reservation → ℚ → Prop
  | flights (legs : List Leg) : Updated r { r with flights := legs }
      (fare r.passengers.length legs - (r.flights.map Leg.price).sum * r.passengers.length)
  | baggages (total_baggages nonfree_baggages : ℤ) :
      Updated r { r with total_baggages := total_baggages, nonfree_baggages := nonfree_baggages }
        (50 * max 0 (nonfree_baggages - r.nonfree_baggages))

/-- The user after an update. -/
def User.charged (user : User) (payment_id : PyStr) (price : ℚ) : User :=
  { user with payment_methods := charge user.payment_methods payment_id price }

/-- The reservation after an update, with its entry in the history. -/
def Reservation.billed (reservation : Reservation) (payment_id : PyStr) (price : ℚ) : Reservation :=
  { reservation with payment_history := entered reservation.payment_history payment_id price }

variable (numeral : ℚ → PyStr)

/-- What a call can do to the database. -/
inductive Step (db : Db) : Call → Except PyErr Reply → Db → Prop
  | nothing (call : Call) (out : Except PyErr Reply) : Step db call out db
  | booked {booking : Booking} {user : User} {legs : List Leg}
      {methods : Table PyStr PaymentMethod} {id : PyStr}
        (hid : id = newReservationId db.reservations)
      (hchecks : checkBooking numeral db booking = .ok (user, legs))
      (hpaid : payAll booking.payment_methods user.payment_methods = (.ok (), methods)) :
      Step db (.bookReservation booking) (.ok (.reservation (booking.reservation id legs)))
        { db with
          reservations := db.reservations.set id (booking.reservation id legs)
          users := db.users.set booking.user_id { user with
            payment_methods := methods, reservations := user.reservations ++ [id] } }
  | halfPaid {booking : Booking} {user : User} {legs : List Leg} {e : PyErr}
      {methods : Table PyStr PaymentMethod}
      (hchecks : checkBooking numeral db booking = .ok (user, legs))
      (hpaid : payAll booking.payment_methods user.payment_methods = (.error e, methods)) :
      Step db (.bookReservation booking) (.error e)
        { db with users := db.users.set booking.user_id { user with payment_methods := methods } }
  | cancelled {id : PyStr} {r : Reservation} (hget : db.reservations.get? id = some r) :
      Step db (.cancelReservation id) (.ok (.reservation r.cancel))
        { db with reservations := db.reservations.set id r.cancel }
  | updated {call : Call} {id payment_id : PyStr} {r r' : Reservation} {user : User} {price : ℚ}
      (hget : db.reservations.get? id = some r) (hupdated : Updated r r' price)
      (huser : db.users.get? r.user_id = some user)
      (hmethod : checkMethod user.payment_methods payment_id price = .ok ()) :
      Step db call (.ok (.reservation (r'.billed payment_id price)))
        { db with
          reservations := db.reservations.set id (r'.billed payment_id price)
          users := db.users.set r.user_id (user.charged payment_id price) }
  | renamed {id : PyStr} {r : Reservation} {passengers : List Passenger}
      (hget : db.reservations.get? id = some r) (hlength : passengers.length = r.passengers.length) :
      Step db (.updateReservationPassengers id passengers)
        (.ok (.reservation { r with passengers := passengers }))
        { db with reservations := db.reservations.set id { r with passengers := passengers } }
  | certified {user_id payment_id text : PyStr} {user : User} {amount : ℚ}
      (huser : db.users.get? user_id = some user)
      (hnew : user.payment_methods.get? payment_id = none) :
      Step db (.sendCertificate user_id amount) (.ok (.text text))
        { db with users := db.users.set user_id { user with
            payment_methods := user.payment_methods.set payment_id
              (.certificate payment_id amount) } }

section Step

variable {numeral} {db : Db}

/-- Checked writes, case by case. -/
theorem checked_step {α : Type} {call : Call} {checks : Except Halt α} {writes : α → Tool}
    (h : ∀ a, checks = .ok a → Step numeral db call (writes a db).1 (writes a db).2) :
    Step numeral db call (checked checks writes db).1 (checked checks writes db).2 := by
  rcases hchecks : checks with halt | a
  · have hdb := checked_error (rfl : (.error halt : Except Halt α) = .error halt) writes db
    rw [hdb]
    exact .nothing _ _
  · exact h a hchecks

theorem bookReservation_step (booking : Booking) :
    Step numeral db (.bookReservation booking) (bookReservation numeral booking db).1
      (bookReservation numeral booking db).2 := by
  refine checked_step fun (user, legs) hchecks => ?_
  rcases hpaid : payAll booking.payment_methods user.payment_methods with ⟨e | ⟨⟩, methods⟩
  · simp only [hpaid]
    exact .halfPaid hchecks hpaid
  · simp only [hpaid]
    exact .booked rfl hchecks hpaid

theorem cancelReservation_step (id : PyStr) :
    Step numeral db (.cancelReservation id) (cancelReservation id db).1
      (cancelReservation id db).2 :=
  checked_step fun _ hget => .cancelled (entryOr_eq_ok.mp hget)

theorem payUpdate_step {call : Call} {id payment_id : PyStr} {r r' : Reservation} {price : ℚ}
    (hget : db.reservations.get? id = some r) (hupdated : Updated r r' price) :
    Step numeral db call (payUpdate id r r' payment_id price db).1
      (payUpdate id r r' payment_id price db).2 := by
  refine checked_step fun user hchecks => ?_
  obtain ⟨user', huser, hrest⟩ := bind_eq_ok.mp hchecks
  obtain ⟨⟨⟩, hmethod, huser'⟩ := bind_eq_ok.mp hrest
  obtain rfl := Except.ok.inj huser'
  have hhistory : r'.payment_history = r.payment_history := by
    cases hupdated <;> rfl
  have hbilled : { r' with payment_history := entered r.payment_history payment_id price } =
      r'.billed payment_id price := by
    rw [Reservation.billed, hhistory]
  rw [hbilled]
  exact .updated hget hupdated (entry_eq_ok.mp huser) hmethod

theorem updateReservationFlights_step (id cabin : PyStr) (flights : List FlightRef)
    (payment_id : PyStr) : Step numeral db (.updateReservationFlights id cabin flights payment_id)
      (updateReservationFlights id cabin flights payment_id db).1
      (updateReservationFlights id cabin flights payment_id db).2 := by
  refine checked_step fun (r, legs) hchecks => ?_
  obtain ⟨r', hget, hrest⟩ := bind_eq_ok.mp hchecks
  obtain ⟨legs', -, heq⟩ := bind_eq_ok.mp hrest
  obtain ⟨rfl, rfl⟩ := Prod.mk.inj (Except.ok.inj heq)
  exact payUpdate_step (entryOr_eq_ok.mp hget) (.flights legs')

theorem updateReservationBaggages_step (id : PyStr) (total_baggages nonfree_baggages : ℤ)
    (payment_id : PyStr) :
    Step numeral db (.updateReservationBaggages id total_baggages nonfree_baggages payment_id)
      (updateReservationBaggages id total_baggages nonfree_baggages payment_id db).1
      (updateReservationBaggages id total_baggages nonfree_baggages payment_id db).2 :=
  checked_step fun _ hget => payUpdate_step (entryOr_eq_ok.mp hget) (.baggages _ _)

theorem updateReservationPassengers_step (id : PyStr) (passengers : List Passenger) :
    Step numeral db (.updateReservationPassengers id passengers)
      (updateReservationPassengers id passengers db).1
      (updateReservationPassengers id passengers db).2 := by
  refine checked_step fun r hchecks => ?_
  obtain ⟨r', hget, hrest⟩ := bind_eq_ok.mp hchecks
  obtain ⟨⟨⟩, hlength, heq⟩ := bind_eq_ok.mp hrest
  obtain rfl := Except.ok.inj heq
  exact .renamed (entryOr_eq_ok.mp hget) (by simpa using require_eq_ok.mp hlength)

theorem sendCertificate_step (user_id : PyStr) (amount : ℚ) :
    Step numeral db (.sendCertificate user_id amount) (sendCertificate numeral user_id amount db).1
      (sendCertificate numeral user_id amount db).2 := by
  refine checked_step fun user huser => ?_
  rcases hfree : certificateIds.find? fun id => (user.payment_methods.get? id).isNone with
    _ | payment_id
  · exact .nothing _ _
  · have hnone : (user.payment_methods.get? payment_id).isNone := by
      simpa using List.find?_some hfree
    exact .certified (entryOr_eq_ok.mp huser) (Option.isNone_iff_eq_none.mp hnone)

theorem searchOnestopFlight_step (origin destination date : PyStr) :
    Step numeral db (.searchOnestopFlight origin destination date)
      (searchOnestopFlight origin destination date db).1
      (searchOnestopFlight origin destination date db).2 :=
  lift_bind_cases (P := fun out => Step numeral db _ out.1 out.2) (fun _ _ => .nothing _ _)
    fun _ _ => .nothing _ _

/-- A tool that only reads. -/
theorem read_step {α : Type} {call : Call} {checks : Except Halt α} {reply : α → Reply} :
    Step numeral db call (checked checks (fun a => pure (reply a)) db).1
      (checked checks (fun a => pure (reply a)) db).2 :=
  checked_step fun _ _ => .nothing _ _

end Step

/-- **What a call can do.** -/
theorem invoke_step (texts : Texts) (db : Db) (call : Call) :
    Step texts.numeral db call (invoke texts call db).1 (after texts db call) := by
  cases call with
  | bookReservation booking => exact bookReservation_step booking
  | cancelReservation id => exact cancelReservation_step id
  | updateReservationFlights id cabin flights payment_id =>
    exact updateReservationFlights_step id cabin flights payment_id
  | updateReservationBaggages id total_baggages nonfree_baggages payment_id =>
    exact updateReservationBaggages_step id total_baggages nonfree_baggages payment_id
  | updateReservationPassengers id passengers =>
    exact updateReservationPassengers_step id passengers
  | sendCertificate user_id amount => exact sendCertificate_step user_id amount
  | getUserDetails user_id => exact read_step
  | getReservationDetails id => exact read_step
  | searchOnestopFlight origin destination date =>
    exact searchOnestopFlight_step origin destination date
  | calculate | listAllAirports | think | transferToHumanAgents | searchDirectFlight =>
    exact .nothing _ _

end Airline

end ToolAgent
