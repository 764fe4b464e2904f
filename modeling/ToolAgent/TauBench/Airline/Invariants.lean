import ToolAgent.TauBench.Airline.Steps
import Mathlib.Tactic.Linarith

/-!
# Invariants of the airline database

What holds of the database in every state that calls lead to, whatever the calls are.

* A reservation is listed by its owner, and what a user lists is there (`Linked`). After a fourth
  booking it may be the reservation of another user.
* A reservation that is not cancelled is paid: its history comes to at least what it costs
  (`Settled`). Updates charge the difference, and a number of passengers cannot be changed.
* A reservation keeps its owner, its cabin and its number of passengers, its history only grows, and
  a cancelled one stays cancelled (`Kept`). The exception is the third id of a new reservation,
  under which a fourth booking is stored too.
* The flights do not change. In particular a booking takes no seats.

Balances need care of the caller. The payments of a booking are checked one by one, each against the
balance before the booking, so a gift card that is listed twice can be overdrawn.

## Main results

* `Consistent.step` — what every call keeps
* `flights_run` — a run of calls does not change the flights
* `solvent_run` — no balance is negative after bookings that list every method once
* `changed_by_failure_iff` — the one way in which a call that fails leaves a change
-/

namespace ToolAgent

namespace Airline

open Python Prog Tables Runs

variable {numeral : ℚ → PyStr} {texts : Texts} {db db' : Db} {call : Call}
    {out : Except PyErr Reply}

/-! ### What a step does to the tables -/

/-- A stored reservation after a call. -/
inductive Revised (r : Reservation) : Reservation → Prop
  | cancelled : Revised r r.cancel
  | updated {r' : Reservation} {price : ℚ} (payment_id : PyStr) (h : Updated r r' price) :
      Revised r (r'.billed payment_id price)
  | renamed {passengers : List Passenger} (h : passengers.length = r.passengers.length) :
      Revised r { r with passengers := passengers }

/-- A booking whose payments add up. -/
def Booking.Paid (booking : Booking) (legs : List Leg) : Prop :=
  paid booking.payment_methods = bookingPrice booking legs

/-- What the checks of a booking ask for. -/
theorem checkBooking_eq_ok {booking : Booking} {user : User} {legs : List Leg} :
    checkBooking numeral db booking = .ok (user, legs) ↔
      booking.flights.mapM (priceFlight db booking.cabin booking.passengers.length) = .ok legs ∧
      db.users.get? booking.user_id = some user ∧
      (∀ payment ∈ booking.payment_methods, checkPayment user.payment_methods payment = .ok ()) ∧
      booking.Paid legs := by
  constructor
  · intro h
    obtain ⟨user', huser, h⟩ := bind_eq_ok.mp h
    obtain ⟨legs', hlegs, h⟩ := bind_eq_ok.mp h
    obtain ⟨units, hchecks, h⟩ := bind_eq_ok.mp h
    obtain ⟨⟨⟩, hsum, h⟩ := bind_eq_ok.mp h
    obtain ⟨rfl, rfl⟩ := Prod.mk.inj (Except.ok.inj h)
    have hpaid : paid booking.payment_methods = bookingPrice booking legs' := by
      simpa using require_eq_ok.mp hsum
    refine ⟨hlegs, entryOr_eq_ok.mp huser, fun payment hpayment => ?_, hpaid⟩
    obtain ⟨⟨⟩, hcheck⟩ := exists_of_mapM hchecks payment hpayment
    exact hcheck
  · rintro ⟨hlegs, huser, hchecks, hpaid⟩
    rw [checkBooking, entryOr_eq_ok.mpr huser, ok_bind, hlegs, ok_bind]
    have hunits := mapM_eq_ok_map hchecks
    show (booking.payment_methods.mapM (checkPayment user.payment_methods) >>= _ :
      Except Halt (User × List Leg)) = _
    rw [hunits, ok_bind, require_eq_ok.mpr (by simpa [Booking.Paid] using hpaid), ok_bind]

/-- What the checks of a booking establish of its payments. -/
theorem checkBooking_ok {booking : Booking} {user : User} {legs : List Leg}
    (h : checkBooking numeral db booking = .ok (user, legs)) :
    db.users.get? booking.user_id = some user ∧
      (∀ payment ∈ booking.payment_methods, checkPayment user.payment_methods payment = .ok ()) ∧
      booking.Paid legs :=
  (checkBooking_eq_ok.mp h).2

/-- **The reservations after a step.** -/
theorem Step.reservations (h : Step numeral db call out db') :
    db'.reservations = db.reservations ∨
      (∃ id r r', db.reservations.get? id = some r ∧ Revised r r' ∧
        db'.reservations = db.reservations.set id r') ∨
      ∃ (booking : Booking) (legs : List Leg), booking.Paid legs ∧
        db'.reservations = db.reservations.set (newReservationId db.reservations)
          (booking.reservation (newReservationId db.reservations) legs) := by
  cases h with
  | nothing | halfPaid | certified => exact .inl rfl
  | booked hid hchecks hpaid =>
    subst hid
    exact .inr (.inr ⟨_, _, (checkBooking_ok hchecks).2.2, rfl⟩)
  | cancelled hget => exact .inr (.inl ⟨_, _, _, hget, .cancelled, rfl⟩)
  | updated hget hupdated huser hmethod =>
    exact .inr (.inl ⟨_, _, _, hget, .updated _ hupdated, rfl⟩)
  | renamed hget hlength => exact .inr (.inl ⟨_, _, _, hget, .renamed hlength, rfl⟩)

theorem Step.flights (h : Step numeral db call out db') : db'.flights = db.flights := by
  cases h <;> rfl

/-- **No call changes the flights.** -/
theorem flights_run (texts : Texts) (db : Db) (calls : List Call) :
    (run (after texts) db calls).flights = db.flights := by
  induction calls generalizing db with
  | nil => rfl
  | cons call calls ih => exact (ih (after texts db call)).trans (invoke_step texts db call).flights

/-- A property of the reservations that is established by a booking and kept by what is done to a
stored one. -/
theorem Step.all_reservations {P : Reservation → Prop}
    (hbooked : ∀ (booking : Booking) (id : PyStr) (legs : List Leg), booking.Paid legs →
      P (booking.reservation id legs))
    (hrevised : ∀ r r', P r → Revised r r' → P r') (h : Step numeral db call out db')
    (hall : db.reservations.All fun _ r => P r) : db'.reservations.All fun _ r => P r := by
  rcases h.reservations with heq | ⟨id, r, r', hget, hr, heq⟩ | ⟨booking, legs, hpaid, heq⟩
  · rw [heq]
    exact hall
  · rw [heq]
    exact hall.set (hrevised r r' (hall id r hget) hr)
  · rw [heq]
    exact hall.set (hbooked booking _ legs hpaid)

/-! ### What is paid -/

theorem paid_append (xs ys : List Payment) : paid (xs ++ ys) = paid xs + paid ys := by
  rw [paid, List.map_append, List.sum_append, paid, paid]

theorem paid_entered (history : List Payment) (payment_id : PyStr) (price : ℚ) :
    paid (entered history payment_id price) = paid history + price := by
  rw [entered]
  split
  · rw [paid_append]
    simp [paid]
  · next hzero => rw [not_not.mp hzero, add_zero]

theorem fare_eq (n : ℕ) (legs : List Leg) : fare n legs = (legs.map Leg.price).sum * n := by
  rw [fare]
  induction legs with
  | nil => simp
  | cons leg legs ih => rw [List.map_cons, List.sum_cons, ih, List.map_cons, List.sum_cons, add_mul]

/-- What a reservation costs. -/
def Reservation.cost (r : Reservation) : ℚ :=
  fare r.passengers.length r.flights + insurancePrice r.insurance r.passengers.length +
    50 * r.nonfree_baggages

/-- A reservation is cancelled or paid. -/
def Settled (r : Reservation) : Prop :=
  r.status = some "cancelled" ∨ r.cost ≤ paid r.payment_history

instance (r : Reservation) : Decidable (Settled r) := inferInstanceAs (Decidable (_ ∨ _))

theorem settled_booking {booking : Booking} {legs : List Leg} (h : booking.Paid legs) (id : PyStr) :
    Settled (booking.reservation id legs) :=
  .inr (le_of_eq h.symm)

theorem Settled.revised {r r' : Reservation} (h : Settled r) (hr : Revised r r') : Settled r' := by
  cases hr with
  | cancelled => exact .inl rfl
  | renamed hlength =>
    refine h.imp id fun hcost => ?_
    rw [Reservation.cost] at hcost ⊢
    simpa only [hlength] using hcost
  | updated payment_id hupdated =>
    cases hupdated with
    | flights legs =>
      refine h.imp id fun hcost => ?_
      rw [Reservation.cost] at hcost ⊢
      simp only [Reservation.billed, paid_entered]
      rw [fare_eq r.passengers.length r.flights] at hcost
      linarith
    | baggages total_baggages nonfree_baggages =>
      refine h.imp id fun hcost => ?_
      rw [Reservation.cost] at hcost ⊢
      simp only [Reservation.billed, paid_entered]
      have hmax : (nonfree_baggages - r.nonfree_baggages : ℚ) ≤
          (max 0 (nonfree_baggages - r.nonfree_baggages) : ℤ) := by
        exact_mod_cast le_max_right _ _
      linarith

/-! ### What stays of a reservation -/

/-- What calls leave of a reservation. -/
structure Kept (r r' : Reservation) : Prop where
  reservation_id : r'.reservation_id = r.reservation_id
  user_id : r'.user_id = r.user_id
  origin : r'.origin = r.origin
  destination : r'.destination = r.destination
  flight_type : r'.flight_type = r.flight_type
  cabin : r'.cabin = r.cabin
  created_at : r'.created_at = r.created_at
  insurance : r'.insurance = r.insurance
  passengers : r'.passengers.length = r.passengers.length
  /-- Entries of the history are only added. -/
  history : r.payment_history <+: r'.payment_history
  cancelled : r.status = some "cancelled" → r'.status = some "cancelled"

theorem Kept.refl (r : Reservation) : Kept r r :=
  ⟨rfl, rfl, rfl, rfl, rfl, rfl, rfl, rfl, rfl, List.prefix_rfl, id⟩

theorem Kept.trans {r₁ r₂ r₃ : Reservation} (h : Kept r₁ r₂) (h' : Kept r₂ r₃) : Kept r₁ r₃ where
  reservation_id := h'.reservation_id.trans h.reservation_id
  user_id := h'.user_id.trans h.user_id
  origin := h'.origin.trans h.origin
  destination := h'.destination.trans h.destination
  flight_type := h'.flight_type.trans h.flight_type
  cabin := h'.cabin.trans h.cabin
  created_at := h'.created_at.trans h.created_at
  insurance := h'.insurance.trans h.insurance
  passengers := h'.passengers.trans h.passengers
  history := h.history.trans h'.history
  cancelled := h'.cancelled ∘ h.cancelled

theorem prefix_entered (history : List Payment) (payment_id : PyStr) (price : ℚ) :
    history <+: entered history payment_id price := by
  rw [entered]
  split
  · exact List.prefix_append _ _
  · exact List.prefix_rfl

theorem Revised.kept {r r' : Reservation} (h : Revised r r') : Kept r r' := by
  cases h with
  | cancelled =>
    exact ⟨rfl, rfl, rfl, rfl, rfl, rfl, rfl, rfl, rfl, List.prefix_append _ _, fun _ => rfl⟩
  | renamed hlength => exact ⟨rfl, rfl, rfl, rfl, rfl, rfl, rfl, rfl, hlength, List.prefix_rfl, id⟩
  | updated payment_id hupdated =>
    cases hupdated with
    | flights | baggages =>
      exact ⟨rfl, rfl, rfl, rfl, rfl, rfl, rfl, rfl, rfl, prefix_entered _ _ _, id⟩

/-- The reservations of one database are there in another, except under the last new id. -/
def Extends (db db' : Db) : Prop :=
  ∀ id r, id ≠ PyStr.ofString "HATHAV" → db.reservations.get? id = some r →
    ∃ r', db'.reservations.get? id = some r' ∧ Kept r r'

theorem Extends.refl (db : Db) : Extends db db := fun _ r _ hget => ⟨r, hget, .refl r⟩

theorem Extends.trans {db₁ db₂ db₃ : Db} (h : Extends db₁ db₂) (h' : Extends db₂ db₃) :
    Extends db₁ db₃ := by
  intro id r hid hget
  obtain ⟨r', hget', hkept⟩ := h id r hid hget
  obtain ⟨r'', hget'', hkept'⟩ := h' id r' hid hget'
  exact ⟨r'', hget'', hkept.trans hkept'⟩

/-- The id of a new reservation is new, or it is the last one. -/
theorem newReservationId_cases (reservations : Table PyStr Reservation) :
    reservations.get? (newReservationId reservations) = none ∨
      newReservationId reservations = PyStr.ofString "HATHAV" := by
  rw [newReservationId]
  split
  · split
    · exact .inr rfl
    · next hnone => exact .inl (by simpa using hnone)
  · next hnone => exact .inl (by simpa using hnone)

theorem Step.extends (h : Step numeral db call out db') : Extends db db' := by
  intro id r hid hget
  rcases h.reservations with heq | ⟨id', r₁, r', hget', hr, heq⟩ | ⟨booking, legs, -, heq⟩
  · exact ⟨r, heq ▸ hget, .refl r⟩
  · by_cases hsame : id = id'
    · subst hsame
      rw [hget] at hget'
      obtain rfl := Option.some.inj hget'
      exact ⟨r', by rw [heq, Table.get?_set_self], hr.kept⟩
    · exact ⟨r, by rw [heq, Table.get?_set_of_ne hsame, hget], .refl r⟩
  · have hne : id ≠ newReservationId db.reservations := by
      rintro rfl
      rcases newReservationId_cases db.reservations with hnone | hlast
      · rw [hget] at hnone
        cases hnone
      · exact hid hlast
    exact ⟨r, by rw [heq, Table.get?_set_of_ne hne, hget], .refl r⟩

/-! ### Users and reservations -/

/-- A user lists a reservation. -/
def Lists (db : Db) (user_id id : PyStr) : Prop :=
  ∃ ids, (db.users.get? user_id).map User.reservations = some ids ∧ id ∈ ids

/-- A reservation is listed by its owner, and what is listed is there. -/
structure Linked (db : Db) : Prop where
  owned : db.reservations.All fun id r => Lists db r.user_id id
  found : ∀ user_id id, Lists db user_id id → ∃ r, db.reservations.get? id = some r

/-- A user is written whose list is the one there was. -/
theorem reservations_setUser {user_id : PyStr} {user user' : User}
    (huser : db.users.get? user_id = some user) (hlist : user'.reservations = user.reservations)
    (user_id' : PyStr) : ((db.users.set user_id user').get? user_id').map User.reservations =
      (db.users.get? user_id').map User.reservations :=
  Table.map_get?_set huser hlist user_id'

theorem lists_congr (h : ∀ user_id, (db'.users.get? user_id).map User.reservations =
    (db.users.get? user_id).map User.reservations) (user_id id : PyStr) :
    Lists db' user_id id ↔ Lists db user_id id := by
  rw [Lists, Lists, h]

/-- What is done to a stored reservation leaves the references. -/
theorem Linked.revise {id : PyStr} {r r' : Reservation} (h : Linked db)
    (hget : db.reservations.get? id = some r) (hr : Revised r r')
    (hreservations : db'.reservations = db.reservations.set id r')
    (husers : ∀ user_id, (db'.users.get? user_id).map User.reservations =
      (db.users.get? user_id).map User.reservations) : Linked db' := by
  refine ⟨?_, fun user_id id' hlists => ?_⟩
  · rw [hreservations]
    refine (h.owned.mono fun id' r'' hlists => (lists_congr husers _ _).mpr hlists).set ?_
    rw [lists_congr husers, hr.kept.user_id]
    exact h.owned id r hget
  · obtain ⟨r'', hget'⟩ := h.found user_id id' ((lists_congr husers _ _).mp hlists)
    rw [hreservations, Table.get?_set]
    split
    · exact ⟨r', rfl⟩
    · exact ⟨r'', hget'⟩

/-- What leaves the reservations and their lists leaves the references. -/
theorem Linked.same (h : Linked db) (hreservations : db'.reservations = db.reservations)
    (husers : ∀ user_id, (db'.users.get? user_id).map User.reservations =
      (db.users.get? user_id).map User.reservations) : Linked db' := by
  refine ⟨?_, fun user_id id hlists => ?_⟩
  · rw [hreservations]
    exact h.owned.mono fun id r hlists => (lists_congr husers _ _).mpr hlists
  · rw [hreservations]
    exact h.found user_id id ((lists_congr husers _ _).mp hlists)

/-- A new reservation is listed by its user. -/
theorem Linked.book {booking : Booking} {legs : List Leg} {user : User} {id : PyStr}
    {methods : Table PyStr PaymentMethod} (h : Linked db)
    (huser : db.users.get? booking.user_id = some user) :
    Linked { db with
      reservations := db.reservations.set id (booking.reservation id legs)
      users := db.users.set booking.user_id { user with
        payment_methods := methods, reservations := user.reservations ++ [id] } } := by
  have hgrow {user_id id' : PyStr} (hlists : Lists db user_id id') :
      Lists { db with
        reservations := db.reservations.set id (booking.reservation id legs)
        users := db.users.set booking.user_id { user with
          payment_methods := methods, reservations := user.reservations ++ [id] } }
            user_id id' := by
    obtain ⟨ids, hids, hmem⟩ := hlists
    by_cases heq : user_id = booking.user_id
    · subst heq
      rw [huser] at hids
      obtain rfl : user.reservations = ids := Option.some.inj hids
      exact ⟨_, by rw [Table.get?_set_self, Option.map_some], List.mem_append_left _ hmem⟩
    · exact ⟨ids, by rw [Table.get?_set_of_ne heq, hids], hmem⟩
  refine ⟨(h.owned.mono fun id' r hlists => hgrow hlists).set ?_, fun user_id id' hlists => ?_⟩
  · exact ⟨_, by rw [Booking.reservation, Table.get?_set_self, Option.map_some],
      List.mem_append_right _ (List.mem_singleton.mpr rfl)⟩
  · show ∃ r, (db.reservations.set id _).get? id' = some r
    rw [Table.get?_set]
    split
    · exact ⟨_, rfl⟩
    · next hne =>
      obtain ⟨ids, hids, hmem⟩ := hlists
      rw [Table.get?_set] at hids
      split at hids
      · next heq =>
        obtain rfl := Option.some.inj hids
        rcases List.mem_append.mp hmem with hmem | hmem
        · exact h.found booking.user_id id' ⟨user.reservations, by rw [huser, Option.map_some], hmem⟩
        · exact absurd (List.mem_singleton.mp hmem) hne
      · exact h.found user_id id' ⟨ids, hids, hmem⟩

theorem Linked.step (hlinked : Linked db) (h : Step numeral db call out db') : Linked db' := by
  cases h with
  | nothing => exact hlinked
  | booked hid hchecks hpaid => exact hlinked.book (checkBooking_ok hchecks).1
  | halfPaid hchecks hpaid =>
    exact hlinked.same rfl (reservations_setUser (checkBooking_ok hchecks).1 (by rfl))
  | cancelled hget => exact hlinked.revise hget .cancelled rfl fun _ => rfl
  | updated hget hupdated huser hmethod =>
    exact hlinked.revise hget (.updated _ hupdated) rfl (reservations_setUser huser (by rfl))
  | renamed hget hlength => exact hlinked.revise hget (.renamed hlength) rfl fun _ => rfl
  | certified huser hnew =>
    exact hlinked.same rfl (reservations_setUser huser (by rfl))

/-! ### All of it together -/

/-- A database that calls have made of the one that was loaded. -/
structure Consistent (loaded db : Db) : Prop where
  linked : Linked db
  settled : db.reservations.All fun _ r => Settled r
  kept : Extends loaded db
  flights : db.flights = loaded.flights

theorem Consistent.refl (hlinked : Linked db)
    (hsettled : db.reservations.All fun _ r => Settled r) :
    Consistent db db :=
  ⟨hlinked, hsettled, .refl db, rfl⟩

theorem Consistent.step {loaded : Db} (hdb : Consistent loaded db)
    (h : Step numeral db call out db') :
    Consistent loaded db' where
  linked := hdb.linked.step h
  settled := h.all_reservations (fun _ id _ hpaid => settled_booking hpaid id)
    (fun _ _ => Settled.revised) hdb.settled
  kept := hdb.kept.trans h.extends
  flights := h.flights.trans hdb.flights

/-! ### Balances -/

/-- What a payment method has left. A credit card has no balance. -/
def PaymentMethod.balance : PaymentMethod → ℚ
  | .creditCard .. => 0
  | .giftCard _ amount | .certificate _ amount => amount

/-- No balance is negative. -/
def User.Solvent (user : User) : Prop := user.payment_methods.All fun _ method => 0 ≤ method.balance

def Solvent (db : Db) : Prop := db.users.All fun _ user => user.Solvent

instance (user : User) : Decidable user.Solvent := inferInstanceAs (Decidable (Table.All _ _))

instance (db : Db) : Decidable (Solvent db) := inferInstanceAs (Decidable (Table.All _ _))

/-- A booking names a method once, and a certificate is not negative. -/
def Prudent : Call → Prop
  | .bookReservation booking => (booking.payment_methods.map Payment.payment_id).Nodup
  | .sendCertificate _ amount => 0 ≤ amount
  | _ => True

instance (call : Call) : Decidable (Prudent call) := by
  cases call <;> unfold Prudent <;> infer_instance

section Balances

variable {methods : Table PyStr PaymentMethod} {payments : List Payment} {id card : PyStr}
    {amount : ℚ}

theorem paidWith_of_not_mem (h : id ∉ payments.map Payment.payment_id) :
    paidWith id payments = 0 := by
  rw [paidWith, List.filter_eq_nil_iff.mpr]
  · rfl
  · intro payment hpayment heq
    exact h (List.mem_map.mpr ⟨payment, hpayment, by simpa using heq⟩)

theorem le_of_checkPayment {payment : Payment} (h : checkPayment methods payment = .ok ())
    (hget : methods.get? payment.payment_id = some (.giftCard card amount)) :
    payment.amount ≤ amount := by
  obtain ⟨method, hmethod, h⟩ := bind_eq_ok.mp h
  rw [entryOr_eq_ok, hget] at hmethod
  obtain rfl := Option.some.inj hmethod
  simpa using require_eq_ok.mp h

/-- A gift card that is listed once is not overdrawn. -/
theorem paidWith_le (hnodup : (payments.map Payment.payment_id).Nodup)
    (hchecks : ∀ payment ∈ payments, checkPayment methods payment = .ok ())
    (hget : methods.get? id = some (.giftCard card amount)) (hamount : 0 ≤ amount) :
    paidWith id payments ≤ amount := by
  induction payments with
  | nil => exact hamount
  | cons payment payments ih =>
    obtain ⟨hnot, hnodup⟩ := List.nodup_cons.mp hnodup
    obtain ⟨hcheck, hchecks⟩ := List.forall_mem_cons.mp hchecks
    rw [paidWith_cons]
    split
    · next heq =>
      subst heq
      rw [paidWith_of_not_mem hnot, add_zero]
      exact le_of_checkPayment hcheck hget
    · rw [zero_add]
      exact ih hnodup hchecks

/-- What is paid leaves the user solvent when no gift card pays more than it has. -/
theorem solvent_payAll {methods' : Table PyStr PaymentMethod}
    (hsolvent : methods.All fun _ method => 0 ≤ method.balance)
    (hpaid : payAll payments methods = (.ok (), methods'))
    (hcovered : ∀ id card amount, methods.get? id = some (.giftCard card amount) →
      paidWith id payments ≤ amount) : methods'.All fun _ method => 0 ≤ method.balance := by
  intro id method hmethod
  rw [get?_payAll hpaid] at hmethod
  obtain ⟨old, hold, hspend⟩ := Option.bind_eq_some_iff.mp hmethod
  cases old with
  | creditCard =>
    obtain rfl := Option.some.inj hspend
    exact le_rfl
  | giftCard card amount =>
    obtain rfl := Option.some.inj hspend
    exact sub_nonneg.mpr (hcovered id card amount hold)
  | certificate card amount =>
    rw [spend] at hspend
    split at hspend
    · cases hspend
    · obtain rfl := Option.some.inj hspend
      exact hsolvent id _ hold

theorem solvent_charge {payment_id : PyStr} {price : ℚ}
    (hsolvent : methods.All fun _ method => 0 ≤ method.balance)
    (hmethod : checkMethod methods payment_id price = .ok ()) :
    (charge methods payment_id price).All fun _ method => 0 ≤ method.balance := by
  rw [charge]
  split
  · next hget => exact hsolvent.set (sub_nonneg.mpr (le_of_checkMethod hmethod hget))
  · exact hsolvent

end Balances

theorem Solvent.step (hsolvent : Solvent db) (hprudent : Prudent call)
    (h : Step numeral db call out db') : Solvent db' := by
  cases h with
  | nothing | cancelled | renamed => exact hsolvent
  | booked hid hchecks hpaid =>
    obtain ⟨huser, hpayments, -⟩ := checkBooking_ok hchecks
    have huser_solvent := hsolvent _ _ huser
    refine hsolvent.set (solvent_payAll huser_solvent hpaid fun id card amount hget => ?_)
    exact paidWith_le hprudent hpayments hget (huser_solvent id _ hget)
  | halfPaid hchecks hpaid =>
    -- Distinct methods that are all there pay in full.
    obtain ⟨-, hpayments, -⟩ := checkBooking_ok hchecks
    obtain ⟨methods', hpaid'⟩ := payAll_ok_iff.mpr
      (payable_of_nodup hprudent fun payment hp => exists_checkPayment (hpayments payment hp))
    rw [hpaid] at hpaid'
    cases hpaid'
  | updated hget hupdated huser hmethod =>
    exact hsolvent.set (solvent_charge (hsolvent _ _ huser) hmethod)
  | certified huser hnew => exact hsolvent.set ((hsolvent _ _ huser).set hprudent)

/-- **No balance is negative**, as long as bookings name every method once. -/
theorem solvent_run (texts : Texts) (hsolvent : Solvent db) {calls : List Call}
    (hprudent : ∀ call ∈ calls, Prudent call) : Solvent (run (after texts) db calls) := by
  induction calls generalizing db with
  | nil => exact hsolvent
  | cons call calls ih =>
    obtain ⟨hcall, hcalls⟩ := List.forall_mem_cons.mp hprudent
    exact ih (hsolvent.step hcall (invoke_step texts db call)) hcalls

theorem solvent_run_sample :
    Solvent (run (after sampleTexts) sampleDb [.bookReservation (sampleBooking
      ⟨"gift_card_3576581", 80⟩ ⟨"certificate_4856383", 80⟩), .cancelReservation "HATHAT"]) :=
  solvent_run sampleTexts (by decide +kernel) (by decide +kernel)

/-- Writes that are reached when a reservation is returned. -/
theorem checked_reservation {α : Type} {checks : Except Halt α} {writes : α → Tool}
    {r : Reservation}
    (h : (checked checks writes db).1 = .ok (.reservation r)) :
    ∃ a, checks = .ok a ∧ checked checks writes db = writes a db := by
  rcases checks with halt | a
  · cases halt <;> cases h
  · exact ⟨a, rfl, rfl⟩

/-- A booking that goes through, seen from the users. -/
theorem bookReservation_ok {booking : Booking} {r : Reservation}
    (h : (invoke texts (.bookReservation booking) db).1 = .ok (.reservation r)) :
    ∃ user legs methods, checkBooking texts.numeral db booking = .ok (user, legs) ∧
      payAll booking.payment_methods user.payment_methods = (.ok (), methods) ∧
      (after texts db (.bookReservation booking)).users = db.users.set booking.user_id { user with
        payment_methods := methods
        reservations := user.reservations ++ [newReservationId db.reservations] } := by
  obtain ⟨⟨user, legs⟩, hchecks, hrun⟩ := checked_reservation h
  change invoke texts (.bookReservation booking) db = _ at hrun
  rw [after, hrun]
  rw [hrun] at h
  rcases hpaid : payAll booking.payment_methods user.payment_methods with ⟨e | ⟨⟩, methods⟩
  · simp only [hpaid] at h
    cases h
  · refine ⟨user, legs, methods, hchecks, hpaid, ?_⟩
    simp only [hpaid]
    rfl

/-- **When a booking overdraws a gift card**: it goes through, and a card is listed for more than it
has in total, although each entry is covered. -/
theorem solvent_booking_iff (hsolvent : Solvent db) {booking : Booking} {user : User}
    (huser : db.users.get? booking.user_id = some user) {r : Reservation}
    (h : (invoke texts (.bookReservation booking) db).1 = .ok (.reservation r)) :
    Solvent (after texts db (.bookReservation booking)) ↔
      ∀ id card amount, user.payment_methods.get? id = some (.giftCard card amount) →
        paidWith id booking.payment_methods ≤ amount := by
  obtain ⟨user', legs, methods, hchecks, hpaid, husers⟩ := bookReservation_ok h
  obtain ⟨huser', -, -⟩ := checkBooking_ok hchecks
  rw [huser] at huser'
  obtain rfl := Option.some.inj huser'
  rw [Solvent, husers]
  constructor
  · intro hafter id card amount hget
    have hbalance := hafter booking.user_id _ (Table.get?_set_self _ _ _) id
      (.giftCard card (amount - paidWith id booking.payment_methods)) (by
        show methods.get? id = _
        rw [get?_payAll hpaid, hget, Option.bind_some, spend])
    exact sub_nonneg.mp hbalance
  · intro hcovered
    exact hsolvent.set (solvent_payAll (hsolvent _ _ huser) hpaid hcovered)

/-- A gift card of `100` pays `80` next to a certificate, and not twice. -/
theorem solvent_booking_sample :
    Solvent (after sampleTexts sampleDb
      (.bookReservation (sampleBooking ⟨"gift_card_3576581", 80⟩ ⟨"certificate_4856383", 80⟩))) ∧
    ¬Solvent (after sampleTexts sampleDb
      (.bookReservation (sampleBooking ⟨"gift_card_3576581", 80⟩ ⟨"gift_card_3576581", 80⟩))) := by
  have hsolvent : Solvent sampleDb := by decide +kernel
  have huser : sampleDb.users.get? "chen_jackson_3290" = some ⟨[],
    ⟨[("gift_card_3576581", .giftCard "gift_card_3576581" 100),
      ("certificate_4856383", .certificate "certificate_4856383" 100)], by decide⟩, ["4WQ150"]⟩ :=
        rfl
  have hbooked : ∀ payment ∈ [Payment.mk "certificate_4856383" 80, ⟨"gift_card_3576581", 80⟩],
      (invoke sampleTexts (.bookReservation (sampleBooking ⟨"gift_card_3576581", 80⟩ payment))
        sampleDb).1 = .ok (.reservation ((sampleBooking ⟨"gift_card_3576581", 80⟩ payment).reservation
          "HATHAT" [⟨"DFW", "LAX", "HAT170", "2024-05-22", 80⟩])) := by decide +kernel
  obtain ⟨hcertificate, htwice, -⟩ := by simpa only [List.forall_mem_cons] using hbooked
  constructor
  · refine (solvent_booking_iff hsolvent huser hcertificate).mpr fun id card amount hget => ?_
    rcases List.mem_cons.mp (Table.get?_eq_some_iff.mp hget) with hcard | hcertificate
    · cases hcard
      decide +kernel
    · cases List.mem_singleton.mp hcertificate
  · intro h
    have hcovered := (solvent_booking_iff hsolvent huser htwice).mp h "gift_card_3576581"
      "gift_card_3576581" 100 rfl
    exact absurd hcovered (by decide +kernel)

/-! ### Calls that fail -/

/-- A call raises, or answers with an error. -/
def Failed (out : Except PyErr Reply) : Prop :=
  (∃ e, out = .error e) ∨ ∃ text, out = .ok (.error text)

/-- A certificate is listed twice among payments. -/
def Repeats (methods : Table PyStr PaymentMethod) (payments : List Payment) : Prop :=
  ∃ id card amount, methods.get? id = some (.certificate card amount) ∧
    1 < (payments.map Payment.payment_id).count id

/-- The payments of a booking that passes its checks break off at a repeated certificate. -/
theorem payAll_error_iff {methods : Table PyStr PaymentMethod} {payments : List Payment}
    (h : ∀ payment ∈ payments, ∃ method, methods.get? payment.payment_id = some method) :
    (∃ e methods', payAll payments methods = (.error e, methods')) ↔ Repeats methods payments := by
  have hcases : (∃ e methods', payAll payments methods = (.error e, methods')) ↔
      ¬∃ methods', payAll payments methods = (.ok (), methods') := by
    rcases payAll payments methods with ⟨e | ⟨⟩, methods'⟩ <;> simp
  rw [hcases, payAll_ok_iff, not_forall]
  constructor
  · rintro ⟨id, hid⟩
    rw [Payable] at hid
    split at hid
    · next hnone =>
      obtain ⟨payment, hpayment, rfl⟩ := List.mem_map.mp (not_not.mp hid)
      obtain ⟨method, hmethod⟩ := h payment hpayment
      rw [hnone] at hmethod
      cases hmethod
    · next card amount hget => exact ⟨id, card, amount, hget, not_le.mp hid⟩
    · exact absurd trivial hid
  · rintro ⟨id, card, amount, hget, hcount⟩
    refine ⟨id, ?_⟩
    rw [Payable, hget]
    exact not_le.mpr hcount

/-- Payments that break off have used up a method. -/
theorem missing_of_payAll_error {methods methods' : Table PyStr PaymentMethod} {e : PyErr}
    {payments : List Payment} (h : payAll payments methods = (.error e, methods')) :
    ∃ payment ∈ payments, methods'.get? payment.payment_id = none := by
  induction payments generalizing methods with
  | nil => cases h
  | cons payment payments ih =>
    by_cases hsome : (methods.get? payment.payment_id).isSome
    · obtain ⟨methods₁, hone⟩ := payOne_ok_iff.mpr hsome
      rw [payAll_cons hone] at h
      obtain ⟨payment', hmem, hnone⟩ := ih h
      exact ⟨payment', List.mem_cons_of_mem _ hmem, hnone⟩
    · have hnone : methods.get? payment.payment_id = none := by simpa using hsome
      have hone : payOne payment methods = (.error ⟨.keyError, "'" ++ payment.payment_id ++ "'"⟩,
          methods) := by
        rw [payOne, hnone]
      rw [payAll, forEach, bind_run_of_error hone] at h
      obtain ⟨-, rfl⟩ := Prod.mk.inj h
      exact ⟨payment, List.mem_cons_self, hnone⟩

/-- **The one change that a failing call leaves**: a booking that passes its checks, and lists a
certificate twice. The certificate is gone and nothing is booked. -/
theorem changed_by_failure_iff (texts : Texts) (db : Db) (call : Call) :
    (Failed (invoke texts call db).1 ∧ after texts db call ≠ db) ↔
      ∃ booking user legs, call = .bookReservation booking ∧
        checkBooking texts.numeral db booking = .ok (user, legs) ∧
        Repeats user.payment_methods booking.payment_methods := by
  constructor
  · rintro ⟨hfailed, hchanged⟩
    have hstep := invoke_step texts db call
    generalize (invoke texts call db).1 = out at hstep hfailed
    generalize after texts db call = db' at hstep hchanged
    cases hstep with
    | nothing => exact absurd rfl hchanged
    | halfPaid hchecks hpaid =>
      obtain ⟨-, hpayments, -⟩ := checkBooking_ok hchecks
      exact ⟨_, _, _, rfl, hchecks, (payAll_error_iff fun payment hp =>
        exists_checkPayment (hpayments payment hp)).mp ⟨_, _, hpaid⟩⟩
    | booked | cancelled | updated | renamed | certified => simp [Failed] at hfailed
  · rintro ⟨booking, user, legs, rfl, hchecks, hrepeats⟩
    obtain ⟨huser, hpayments, -⟩ := checkBooking_ok hchecks
    obtain ⟨e, methods', hpaid⟩ := (payAll_error_iff fun payment hp =>
      exists_checkPayment (hpayments payment hp)).mpr hrepeats
    have hrun : invoke texts (.bookReservation booking) db = (.error e,
        { db with users := db.users.set booking.user_id { user with payment_methods := methods' } }) := by
      show checked (checkBooking texts.numeral db booking) _ db = _
      rw [checked_ok hchecks]
      simp only [hpaid]
      rfl
    refine ⟨.inl ⟨e, congrArg Prod.fst hrun⟩, fun hsame => ?_⟩
    obtain ⟨payment, hmem, hnone⟩ := missing_of_payAll_error hpaid
    obtain ⟨method, hmethod⟩ := exists_checkPayment (hpayments payment hmem)
    have huser' : (db.users.set booking.user_id { user with payment_methods := methods' }).get?
        booking.user_id = some user := by
      rw [← huser]
      exact congrArg (·.users.get? booking.user_id) ((congrArg Prod.snd hrun).symm.trans hsame)
    rw [Table.get?_set_self] at huser'
    rw [← congrArg User.payment_methods (Option.some.inj huser'), hnone] at hmethod
    cases hmethod

end Airline

end ToolAgent
