import ToolAgent.Library.Prog
import ToolAgent.Library.Tables
import ToolAgent.Python.Builtins
import Mathlib.Algebra.Order.Field.Rat
import Mathlib.Data.Rat.Cast.Order

/-!
# The airline database and its tools

`tau_bench.envs.airline.tools`: fourteen tools over three tables, the flights, the users and their
reservations. A tool checks its arguments and answers with a text, or raises, at the first check
that fails; then it writes.

A call is a value of `Call`, with arguments of the types that the tool declares. Prices and amounts
are rational numbers, and the text of a number, which tells an integer from a float, is a parameter.

## Where a tool can stop half-way

The checks of `book_reservation` look at the listed payments one by one, and the payments are made
one by one too. A certificate is deleted when it is used, so the second payment with the same
certificate raises, after the first has been made and before there is a reservation.

## Main definitions

* `Db`, `User`, `Reservation`, `Flight` — the data
* `Call`, `Reply` — what a tool takes and gives
* `bookReservation`, `updateReservationFlights`, … — the tools that write
* `invoke` — a call
-/

namespace ToolAgent

namespace Airline

open Python Prog Tables

/-! ### The data -/

/-- A way to pay. Only gift cards and certificates have an amount. -/
inductive PaymentMethod where
  | creditCard (id brand last_four : PyStr)
  | giftCard (id : PyStr) (amount : ℚ)
  | certificate (id : PyStr) (amount : ℚ)
  deriving DecidableEq

structure User where
  /-- `name`, `address`, `email`, `dob`, `saved_passengers` and `membership`. -/
  profile : List (PyStr × PyVal)
  payment_methods : Table PyStr PaymentMethod
  reservations : List PyStr
  deriving DecidableEq

/-- A flight of a reservation, at the price of the booking. -/
structure Leg where
  origin : PyStr
  destination : PyStr
  flight_number : PyStr
  date : PyStr
  price : ℚ
  deriving DecidableEq

structure Payment where
  payment_id : PyStr
  amount : ℚ
  deriving DecidableEq

abbrev Passenger := List (PyStr × PyVal)

structure Reservation where
  reservation_id : PyStr
  user_id : PyStr
  origin : PyStr
  destination : PyStr
  flight_type : PyStr
  cabin : PyStr
  flights : List Leg
  passengers : List Passenger
  payment_history : List Payment
  created_at : PyStr
  total_baggages : ℤ
  nonfree_baggages : ℤ
  insurance : PyStr
  status : Option PyStr := none
  deriving DecidableEq

/-- A flight on one date. Seats and prices are listed while it is available. -/
inductive FlightDate where
  | available (available_seats : Table PyStr ℤ) (prices : Table PyStr ℚ)
  | other (status : PyStr)
  deriving DecidableEq

structure Flight where
  flight_number : PyStr
  origin : PyStr
  destination : PyStr
  scheduled_departure_time_est : PyStr
  scheduled_arrival_time_est : PyStr
  dates : Table PyStr FlightDate
  deriving DecidableEq

structure Db where
  flights : Table PyStr Flight
  reservations : Table PyStr Reservation
  users : Table PyStr User
  deriving DecidableEq

/-! ### Calls and replies -/

/-- A flight as an argument names it. -/
structure FlightRef where
  flight_number : PyStr
  date : PyStr

structure Booking where
  user_id : PyStr
  origin : PyStr
  destination : PyStr
  flight_type : PyStr
  cabin : PyStr
  flights : List FlightRef
  passengers : List Passenger
  payment_methods : List Payment
  total_baggages : ℤ
  nonfree_baggages : ℤ
  insurance : PyStr

inductive Call where
  | bookReservation (booking : Booking)
  | calculate (expression : PyStr)
  | cancelReservation (reservation_id : PyStr)
  | getReservationDetails (reservation_id : PyStr)
  | getUserDetails (user_id : PyStr)
  | listAllAirports
  | searchDirectFlight (origin destination date : PyStr)
  | searchOnestopFlight (origin destination date : PyStr)
  | sendCertificate (user_id : PyStr) (amount : ℚ)
  | think (thought : PyStr)
  | transferToHumanAgents (summary : PyStr)
  | updateReservationBaggages (reservation_id : PyStr) (total_baggages nonfree_baggages : ℤ)
      (payment_id : PyStr)
  | updateReservationFlights (reservation_id cabin : PyStr) (flights : List FlightRef)
      (payment_id : PyStr)
  | updateReservationPassengers (reservation_id : PyStr) (passengers : List Passenger)

/-- The name under which the tool is registered. -/
def Call.name : Call → PyStr
  | .bookReservation _ => "book_reservation"
  | .calculate _ => "calculate"
  | .cancelReservation _ => "cancel_reservation"
  | .getReservationDetails _ => "get_reservation_details"
  | .getUserDetails _ => "get_user_details"
  | .listAllAirports => "list_all_airports"
  | .searchDirectFlight .. => "search_direct_flight"
  | .searchOnestopFlight .. => "search_onestop_flight"
  | .sendCertificate .. => "send_certificate"
  | .think _ => "think"
  | .transferToHumanAgents _ => "transfer_to_human_agents"
  | .updateReservationBaggages .. => "update_reservation_baggages"
  | .updateReservationFlights .. => "update_reservation_flights"
  | .updateReservationPassengers .. => "update_reservation_passengers"

/-- A flight that a search lists, with the entry of a date in place of its dates. -/
structure Listed where
  flight : Flight
  entry : FlightDate
  deriving DecidableEq

/-- What a tool returns. A record stands for the text that `json.dumps` makes of it, and `none` is
Python's `None`. -/
inductive Reply where
  | error (text : PyStr)
  | text (text : PyStr)
  | reservation (reservation : Reservation)
  | user (user : User)
  | flights (results : List Listed)
  | connections (results : List ((Listed × PyStr) × (Listed × PyStr)))
  | none
  deriving DecidableEq

/-- Why a check stops a tool: it answers, or it raises. -/
inductive Halt where
  | answer (text : PyStr)
  | raise (e : PyErr)

abbrev Tool := Prog PyErr Db Reply

/-- Writes that follow checks. -/
def checked {α : Type} (checks : Except Halt α) (writes : α → Tool) : Tool :=
  match checks with
  | .error (.answer text) => pure (.error text)
  | .error (.raise e) => raise e
  | .ok a => writes a

/-- `table[key]` -/
def entry {β : Type} (table : Table PyStr β) (key : PyStr) : Except Halt β :=
  match table.get? key with
  | some v => .ok v
  | none => .error (.raise ⟨.keyError, "'" ++ key ++ "'"⟩)

/-- `table[key]`, where a missing key is answered with `text`. -/
def entryOr {β : Type} (table : Table PyStr β) (key text : PyStr) : Except Halt β :=
  match table.get? key with
  | some v => .ok v
  | none => .error (.answer text)

def require (condition : Bool) (text : PyStr) : Except Halt Unit :=
  if condition then .ok () else .error (.answer text)

/-! ### Flights -/

/-- The entry of a flight that can be booked for `n` passengers, as a leg. -/
def priceFlight (db : Db) (cabin : PyStr) (n : ℕ) (flight : FlightRef) : Except Halt Leg := do
  let flight_data ← entryOr db.flights flight.flight_number
    ("Error: flight " ++ flight.flight_number ++ PyStr.ofString " not found")
  let flight_date_data ← entryOr flight_data.dates flight.date
    ("Error: flight " ++ flight.flight_number ++ PyStr.ofString " not found on date " ++ flight.date)
  match flight_date_data with
  | .other _ =>
    .error (.answer ("Error: flight " ++ flight.flight_number ++
      PyStr.ofString " not available on date " ++ flight.date))
  | .available available_seats prices => do
    let seats ← entry available_seats cabin
    require (n ≤ seats) ("Error: not enough seats on flight " ++ flight.flight_number)
    let price ← entry prices cabin
    .ok ⟨flight_data.origin, flight_data.destination, flight.flight_number, flight.date, price⟩

/-- The price of the legs for `n` passengers. -/
def fare (n : ℕ) (legs : List Leg) : ℚ := (legs.map fun leg : Leg => leg.price * n).sum

/-! ### Payments -/

/-- What the payments come to. -/
def paid (payments : List Payment) : ℚ := (payments.map Payment.amount).sum

/-- The check of one listed payment. -/
def checkPayment (methods : Table PyStr PaymentMethod) (payment : Payment) : Except Halt Unit := do
  let method ← entryOr methods payment.payment_id
    ("Error: payment method " ++ payment.payment_id ++ PyStr.ofString " not found")
  match method with
  | .creditCard .. => .ok ()
  | .giftCard _ amount | .certificate _ amount =>
    require (payment.amount ≤ amount)
      ("Error: not enough balance in payment method " ++ payment.payment_id)

/-- One payment of a booking. A gift card is debited and a certificate is used up. -/
def payOne (payment : Payment) : Prog PyErr (Table PyStr PaymentMethod) Unit := fun methods =>
  match methods.get? payment.payment_id with
  | some (.giftCard id amount) =>
    (.ok (), methods.set payment.payment_id (.giftCard id (amount - payment.amount)))
  | some (.certificate ..) => (.ok (), methods.erase payment.payment_id)
  | some (.creditCard ..) => (.ok (), methods)
  | none => (.error ⟨.keyError, "'" ++ payment.payment_id ++ "'"⟩, methods)

/-- The payments of a booking. -/
def payAll (payments : List Payment) : Prog PyErr (Table PyStr PaymentMethod) Unit :=
  forEach payOne payments

/-- The payment method of an update that costs `price`. -/
def checkMethod (methods : Table PyStr PaymentMethod) (payment_id : PyStr) (price : ℚ) :
    Except Halt Unit := do
  let method ← entryOr methods payment_id "Error: payment method not found"
  match method with
  | .certificate .. =>
    .error (.answer "Error: certificate cannot be used to update reservation")
  | .giftCard _ amount => require (price ≤ amount) "Error: gift card balance is not enough"
  | .creditCard .. => .ok ()

/-- The payment of an update: a gift card is debited. -/
def charge (methods : Table PyStr PaymentMethod) (payment_id : PyStr) (price : ℚ) :
    Table PyStr PaymentMethod :=
  match methods.get? payment_id with
  | some (.giftCard id amount) => methods.set payment_id (.giftCard id (amount - price))
  | _ => methods

/-- The entry of an update in the history, if it costs anything. -/
def entered (history : List Payment) (payment_id : PyStr) (price : ℚ) : List Payment :=
  if price ≠ 0 then history ++ [⟨payment_id, price⟩] else history

/-! ### The tools that write -/

def setReservation (reservation_id : PyStr) (reservation : Reservation) : Prog PyErr Db Unit :=
  modify fun db => { db with reservations := db.reservations.set reservation_id reservation }

def setUser (user_id : PyStr) (user : User) : Prog PyErr Db Unit :=
  modify fun db => { db with users := db.users.set user_id user }

/-- The id of a new reservation. After three of them it is the last one again. -/
def newReservationId (reservations : Table PyStr Reservation) : PyStr :=
  if (reservations.get? "HATHAT").isSome then
    if (reservations.get? "HATHAU").isSome then "HATHAV" else "HATHAU"
  else "HATHAT"

/-- The insurance of `n` passengers. -/
def insurancePrice (insurance : PyStr) (n : ℕ) : ℚ := if insurance = "yes" then 30 * n else 0

/-- `total_price` -/
def bookingPrice (booking : Booking) (legs : List Leg) : ℚ :=
  let n := booking.passengers.length
  fare n legs + insurancePrice booking.insurance n + 50 * booking.nonfree_baggages

section Tools

variable (numeral : ℚ → PyStr)

/-- The checks of a booking, which find the user and the legs. -/
def checkBooking (db : Db) (booking : Booking) : Except Halt (User × List Leg) := do
  let user ← entryOr db.users booking.user_id "Error: user not found"
  let legs ← booking.flights.mapM (priceFlight db booking.cabin booking.passengers.length)
  let total_price := bookingPrice booking legs
  let _ ← booking.payment_methods.mapM (checkPayment user.payment_methods)
  require (paid booking.payment_methods = total_price)
    ("Error: payment amount does not add up, total price is " ++ numeral total_price ++
      PyStr.ofString ", but paid " ++ numeral (paid booking.payment_methods))
  .ok (user, legs)

/-- The new reservation. -/
def Booking.reservation (booking : Booking) (reservation_id : PyStr) (legs : List Leg) :
    Reservation where
  reservation_id := reservation_id
  user_id := booking.user_id
  origin := booking.origin
  destination := booking.destination
  flight_type := booking.flight_type
  cabin := booking.cabin
  flights := legs
  passengers := booking.passengers
  payment_history := booking.payment_methods
  created_at := "2024-05-15T15:00:00"
  total_baggages := booking.total_baggages
  nonfree_baggages := booking.nonfree_baggages
  insurance := booking.insurance

def bookReservation (booking : Booking) : Tool := do
  let db ← get
  checked (checkBooking numeral db booking) fun (user, legs) => do
    let reservation_id := newReservationId db.reservations
    let reservation := booking.reservation reservation_id legs
    match payAll booking.payment_methods user.payment_methods with
    | (.error e, payment_methods) => do
      setUser booking.user_id { user with payment_methods := payment_methods }
      raise e
    | (.ok (), payment_methods) => do
      setReservation reservation_id reservation
      setUser booking.user_id { user with
        payment_methods := payment_methods
        reservations := user.reservations ++ [reservation_id] }
      pure (.reservation reservation)

/-- What `cancel_reservation` writes. -/
def Reservation.cancel (reservation : Reservation) : Reservation :=
  { reservation with
    payment_history := reservation.payment_history ++
      reservation.payment_history.map fun payment => ⟨payment.payment_id, -payment.amount⟩
    status := some "cancelled" }

def cancelReservation (reservation_id : PyStr) : Tool := do
  let db ← get
  checked (entryOr db.reservations reservation_id "Error: reservation not found")
    fun reservation => do
    setReservation reservation_id reservation.cancel
    pure (.reservation reservation.cancel)

/-- A new list of flights. A flight that stays in its cabin keeps its price. -/
def rebook (db : Db) (reservation : Reservation) (cabin : PyStr) (flight : FlightRef) :
    Except Halt Leg :=
  match reservation.flights.find? fun leg => leg.flight_number = flight.flight_number ∧
      leg.date = flight.date ∧ cabin = reservation.cabin with
  | some leg => .ok ⟨leg.origin, leg.destination, flight.flight_number, flight.date, leg.price⟩
  | none => priceFlight db cabin reservation.passengers.length flight

/-- The end of an update: the owner pays, and the reservation changes. -/
def payUpdate (reservation_id : PyStr) (reservation reservation' : Reservation) (payment_id : PyStr)
    (price : ℚ) : Tool := do
  let db ← get
  let checks : Except Halt User := do
    let user ← entry db.users reservation.user_id
    checkMethod user.payment_methods payment_id price
    .ok user
  checked checks fun user => do
    setUser reservation.user_id
      { user with payment_methods := charge user.payment_methods payment_id price }
    let reservation' := { reservation' with
      payment_history := entered reservation.payment_history payment_id price }
    setReservation reservation_id reservation'
    pure (.reservation reservation')

def updateReservationFlights (reservation_id cabin : PyStr) (flights : List FlightRef)
    (payment_id : PyStr) : Tool := do
  let db ← get
  let checks : Except Halt (Reservation × List Leg) := do
    let reservation ← entryOr db.reservations reservation_id "Error: reservation not found"
    let legs ← flights.mapM (rebook db reservation cabin)
    .ok (reservation, legs)
  checked checks fun (reservation, legs) =>
    let n := reservation.passengers.length
    let total_price := fare n legs - (reservation.flights.map Leg.price).sum * n
    payUpdate reservation_id reservation { reservation with flights := legs } payment_id total_price

def updateReservationBaggages (reservation_id : PyStr) (total_baggages nonfree_baggages : ℤ)
    (payment_id : PyStr) : Tool := do
  let db ← get
  checked (entryOr db.reservations reservation_id "Error: reservation not found") fun reservation =>
    let total_price : ℚ := 50 * max 0 (nonfree_baggages - reservation.nonfree_baggages)
    payUpdate reservation_id reservation
      { reservation with total_baggages := total_baggages, nonfree_baggages := nonfree_baggages }
      payment_id total_price

def updateReservationPassengers (reservation_id : PyStr) (passengers : List Passenger) : Tool := do
  let db ← get
  let checks : Except Halt Reservation := do
    let reservation ← entryOr db.reservations reservation_id "Error: reservation not found"
    require (passengers.length = reservation.passengers.length)
      "Error: number of passengers does not match"
    .ok reservation
  checked checks fun reservation => do
    setReservation reservation_id { reservation with passengers := passengers }
    pure (.reservation { reservation with passengers := passengers })

/-- The ids that certificates are sent under. -/
def certificateIds : List PyStr :=
  ["certificate_3221322", "certificate_3221323", "certificate_3221324"]

def sendCertificate (user_id : PyStr) (amount : ℚ) : Tool := do
  let db ← get
  checked (entryOr db.users user_id "Error: user not found") fun user =>
    match certificateIds.find? fun id => (user.payment_methods.get? id).isNone with
    | some payment_id => do
      setUser user_id { user with
        payment_methods := user.payment_methods.set payment_id (.certificate payment_id amount) }
      pure (.text ("Certificate " ++ payment_id ++ PyStr.ofString " added to user " ++ user_id ++
        PyStr.ofString " with amount " ++ numeral amount ++ PyStr.ofString "."))
    | none => pure .none

/-! ### The tools that only read -/

def getUserDetails (user_id : PyStr) : Tool := do
  let db ← get
  checked (entryOr db.users user_id "Error: user not found") fun user => pure (.user user)

def getReservationDetails (reservation_id : PyStr) : Tool := do
  let db ← get
  checked (entryOr db.reservations reservation_id "Error: user not found") fun reservation =>
    pure (.reservation reservation)

/-- The flights in the order of the table. -/
def Db.allFlights (db : Db) : List Flight := db.flights.items.map Prod.snd

/-- What a direct search lists of one flight. -/
def direct (origin destination date : PyStr) (flight : Flight) : Option Listed :=
  if flight.origin = origin ∧ flight.destination = destination then
    match flight.dates.get? date with
    | some (.available seats prices) => some ⟨flight, .available seats prices⟩
    | _ => none
  else none

def searchDirectFlight (origin destination date : PyStr) : Tool := do
  let db ← get
  pure (.flights (db.allFlights.filterMap (direct origin destination date)))

/-- `date2` -/
def secondDate (date : PyStr) (flight1 : Flight) : Except PyErr PyStr :=
  if isSubstr "+1" flight1.scheduled_arrival_time_est then do
    let day ← intOfStr (sliceFrom date (-2))
    .ok ("2024-05-" ++ intRepr (day + 1))
  else .ok date

/-- What a search with one stop lists of two flights. The second one is listed under `date2`, with
its entry of `date`. -/
def connection (date : PyStr) (flight1 flight2 : Flight) :
    Except PyErr (Option ((Listed × PyStr) × (Listed × PyStr))) := do
  let date2 ← secondDate date flight1
  if flight2.scheduled_departure_time_est < flight1.scheduled_arrival_time_est then .ok none
  else
    match flight1.dates.get? date, flight2.dates.get? date2 with
    | some (.available seats prices), some (.available ..) =>
      match flight2.dates.get? date with
      | some listed => .ok (some ((⟨flight1, .available seats prices⟩, date), (⟨flight2, listed⟩, date2)))
      | none => .error ⟨.keyError, "'" ++ date ++ PyStr.ofString "'"⟩
    | _, _ => .ok none

def searchOnestopFlight (origin destination date : PyStr) : Tool := do
  let db ← get
  let results ← lift ((db.allFlights.filter (·.origin = origin)).mapM fun flight1 =>
    (db.allFlights.filter fun flight2 =>
      flight2.destination = destination ∧ flight1.destination = flight2.origin).mapM
        (connection date flight1))
  pure (.connections (results.flatMap List.reduceOption))

/-- What `list_all_airports` answers with. -/
def airports : List (PyStr × PyVal) :=
  [("SFO", .str "San Francisco"), ("JFK", .str "New York"), ("LAX", .str "Los Angeles"),
    ("ORD", .str "Chicago"), ("DFW", .str "Dallas"), ("DEN", .str "Denver"),
      ("SEA", .str "Seattle"),
    ("ATL", .str "Atlanta"), ("MIA", .str "Miami"), ("BOS", .str "Boston"), ("PHX", .str "Phoenix"),
    ("IAH", .str "Houston"), ("LAS", .str "Las Vegas"), ("MCO", .str "Orlando"),
    ("EWR", .str "Newark"), ("CLT", .str "Charlotte"), ("MSP", .str "Minneapolis"),
    ("DTW", .str "Detroit"), ("PHL", .str "Philadelphia"), ("LGA", .str "LaGuardia")]

end Tools

/-! ### A call -/

/-- The texts of a tool that the model leaves open. -/
structure Texts where
  /-- `f"{number}"` -/
  numeral : ℚ → PyStr
  /-- `json.dumps(v)` -/
  dumps : PyVal → PyStr
  /-- What `calculate` answers with: it evaluates the expression, and reads nothing else. -/
  calculate : PyStr → PyStr

variable (texts : Texts)

/-- One call of a tool. -/
def invoke : Call → Tool
  | .bookReservation booking => bookReservation texts.numeral booking
  | .calculate expression => pure (.text (texts.calculate expression))
  | .cancelReservation reservation_id => cancelReservation reservation_id
  | .getReservationDetails reservation_id => getReservationDetails reservation_id
  | .getUserDetails user_id => getUserDetails user_id
  | .listAllAirports => pure (.text (texts.dumps (.dict airports)))
  | .searchDirectFlight origin destination date => searchDirectFlight origin destination date
  | .searchOnestopFlight origin destination date => searchOnestopFlight origin destination date
  | .sendCertificate user_id amount => sendCertificate texts.numeral user_id amount
  | .think _ => pure (.text [])
  | .transferToHumanAgents _ => pure (.text "Transfer successful")
  | .updateReservationBaggages reservation_id total_baggages nonfree_baggages payment_id =>
    updateReservationBaggages reservation_id total_baggages nonfree_baggages payment_id
  | .updateReservationFlights reservation_id cabin flights payment_id =>
    updateReservationFlights reservation_id cabin flights payment_id
  | .updateReservationPassengers reservation_id passengers =>
    updateReservationPassengers reservation_id passengers

/-- The database after a call. -/
def after (db : Db) (call : Call) : Db := (invoke texts call db).2

/-! ### A small database -/

/-- One flight, one user with a gift card and a certificate, and one reservation. -/
def sampleDb : Db where
  flights := ⟨[("HAT170", ⟨"HAT170", "DFW", "LAX", "06:00:00", "09:00:00",
    ⟨[("2024-05-22", .available ⟨[("economy", 3)], by decide⟩ ⟨[("economy", 80)], by decide⟩)],
      by decide⟩⟩)], by decide⟩
  reservations := ⟨[("4WQ150",
    { reservation_id := "4WQ150", user_id := "chen_jackson_3290", origin :=
      "DFW", destination := "LAX",
      flight_type := "one_way", cabin := "economy",
      flights := [⟨"DFW", "LAX", "HAT170", "2024-05-22", 80⟩],
      passengers := [[("first_name", .str "Chen"), ("last_name", .str "Jackson")]],
      payment_history := [⟨"gift_card_3576581", 80⟩], created_at := "2024-05-02T03:10:19",
      total_baggages := 1, nonfree_baggages := 0, insurance := "no" })], by decide⟩
  users := ⟨[("chen_jackson_3290", ⟨[], ⟨[("gift_card_3576581", .giftCard "gift_card_3576581" 100),
    ("certificate_4856383", .certificate "certificate_4856383" 100)], by decide⟩, ["4WQ150"]⟩)],
    by decide⟩

/-- A second seat on the flight of `sampleDb`, with two payments. -/
def sampleBooking (payment₁ payment₂ : Payment) : Booking where
  user_id := "chen_jackson_3290"
  origin := "DFW"
  destination := "LAX"
  flight_type := "one_way"
  cabin := "economy"
  flights := [⟨"HAT170", "2024-05-22"⟩]
  passengers := [[], []]
  payment_methods := [payment₁, payment₂]
  total_baggages := 0
  nonfree_baggages := 0
  insurance := "no"

def sampleTexts : Texts := ⟨fun _ => [], fun _ => [], fun _ => []⟩

end Airline

end ToolAgent
