import ToolAgent.TauBench.Airline.Invariants
import ToolAgent.TauBench.Airline.Sharing
import ToolAgent.Training.LlmJudge

/-!
# Rollouts of the airline

`tau_bench.envs.airline.env` puts the tools, a task and the loaded data together, and a rollout acts
on them through `toolagent.verl_integration`. What the tools keep holds in every state of a rollout
whose calls have arguments of their own, and what the tools read does not count: the judge's list of
write tools is exact.

## Main results

* `rollout_consistent` — the database of every state of every such rollout is consistent with the
  loaded one
* `run_writes` — the calls of tools that are no write tools can be left out of a run
* `writes_iff` — the write tools are the tools that can change the database
* `bookReservation_listed_iff` — what is listed with enough seats can be booked, at its price
-/

namespace ToolAgent

namespace Airline

open Python Prog Tables Runs

variable (texts : Texts) (interface : Interface)

/-! ### Arguments that nobody else holds -/

/-- No arguments are shared. -/
abbrev Unshared (_ : ℕ) : Prop := False

section Rollouts

variable {texts interface}

theorem plainTool_keeps {I : Db → Prop} (h : ∀ db call, I db → I (after texts db call))
    (name : PyStr) (kwargs : TauBench.Kwargs) : Keeps (plainTool texts interface name kwargs) I :=
  .bind (.lift _) fun call => .bind (fun db hdb => h db call hdb) fun _ => .pure _

/-- With arguments of their own, the tools keep what they keep of a database that shares nothing. -/
theorem tool_keeps {I : Db → Prop} (h : ∀ db call, I db → I (after texts db call)) (name : PyStr)
    (kwargs : TauBench.Kwargs) :
    Keeps (tool texts interface name (.own kwargs)) fun memory => memory.links = [] ∧
      I memory.data := by
  rintro memory ⟨hlinks, hdata⟩
  rw [tool_own hlinks]
  exact ⟨hlinks, plainTool_keeps h name kwargs memory.data hdata⟩

variable {υ : Type} {loaded : Db} {task : TauBench.Task} {user : TauBench.User υ}
  {data_hash : Db → Except PyErr PyStr}

/-- What every call keeps is an invariant of the domain. -/
theorem domain_invariant {I : Db → Prop} (hload : I loaded)
    (h : ∀ db call, I db → I (after texts db call))
    (htask : ∀ action ∈ task.actions, Integration.Given Unshared action.kwargs) :
    Integration.Invariant (domain texts interface loaded task user data_hash) Unshared
      fun memory => memory.links = [] ∧ I memory.data where
  load := fun _ _ => ⟨rfl, hload⟩
  put_back := fun _ _ _ hpost => ⟨rfl, hpost.2⟩
  tools := by
    intro name tool' htool args hargs
    obtain ⟨before, rest, heq, -⟩ := List.lookup_eq_some_iff.mp htool
    have hmem : (name, tool') ∈ toolNames.map fun name => (name, tool texts interface name) := by
      show _ ∈ (domain texts interface loaded task user data_hash).tools_map
      rw [heq]
      exact List.mem_append_right _ List.mem_cons_self
    obtain ⟨name', -, hname⟩ := List.mem_map.mp hmem
    obtain ⟨rfl, rfl⟩ := Prod.mk.inj hname
    cases args with
    | own kwargs => exact tool_keeps h name' kwargs
    | shared address => exact hargs.elim
  task := htask

/-- **The database of every state of every rollout is consistent with the loaded one**, if no
arguments are shared: a reservation is listed by its owner, and what is listed is there, what is not
cancelled is paid, reservations keep what calls leave of them, and the flights are those that were
loaded. -/
theorem rollout_consistent (hlinked : Linked loaded)
    (hsettled : loaded.reservations.All fun _ r => Settled r)
    (htask : ∀ action ∈ task.actions, Integration.Given Unshared action.kwargs)
    {py : Interp} {depth : ℕ}
    {max_turns : ℤ} {bNdsrEnabled : Bool} {ident : Integration.Ident} {memory : υ}
    {shared : TauBench.Shared} {replayActions : List Integration.ReplayAction}
    (hreplay : ∀ a ∈ replayActions, a.Given Unshared) {inst : Integration.Instance Db υ}
    (hstart : Integration.startInteraction py (domain texts interface loaded task user data_hash) depth
      bNdsrEnabled ident memory shared replayActions = .ok inst) {ops : List Integration.Op}
    (hops : ∀ op ∈ ops, op.Given Unshared) :
    Consistent loaded (run (Integration.applyOp py
      (domain texts interface loaded task user data_hash) depth max_turns) inst ops).env.data :=
  ((domain_invariant (.refl hlinked hsettled) (fun db call hdb => hdb.step (invoke_step texts db call))
    htask).run hreplay ⟨rfl, .refl hlinked hsettled⟩ hstart hops).2

end Rollouts

/-- Cancel the trip, and book it again. -/
def sampleDomain : TauBench.Domain Db Unit :=
  domain sampleTexts sampleInterface sampleDb
    ⟨"chen_jackson_3290", [⟨"cancel_reservation", .own [("reservation_id", .str "4WQ150")]⟩,
      ⟨"book_reservation", .own sampleKwargs⟩], "Cancel my trip, and book it again.", []⟩
    ⟨fun _ => pure "Please cancel my trip.", fun _ => pure "Thanks.", fun _ => 0⟩ countPayments

/-- A rollout that does what its task says, and hands over. -/
def sampleOps : List Integration.Op :=
  [.tool "cancel_reservation" (.value (.dict [("reservation_id", .str "4WQ150")])),
    .tool "book_reservation" (.value (.dict sampleKwargs)),
    .tool "transfer_to_human_agents" (.value (.dict [("summary", .str "done")]))]

def sampleStart : Integration.Instance Db Unit :=
  ⟨⟨⟨sampleDb, [], fun _ => []⟩, [], ()⟩, Integration.makeInitialState ⟨"instance", "trace", 0, 1⟩⟩

theorem rollout_consistent_sample :
    Consistent sampleDb
      (run (Integration.applyOp .silent sampleDomain 9 24) sampleStart sampleOps).env.data ∧
    let last := run (Integration.applyOp .silent sampleDomain 9 24) sampleStart sampleOps
    last.state.total_reward = 1 ∧
      last.env.data.reservations.items.map Prod.fst = ["4WQ150", "HATHAT"] ∧
      last.env.data.history "4WQ150" = [⟨"gift_card_3576581", 80⟩, ⟨"gift_card_3576581", -80⟩] := by
  have hlinked : Linked sampleDb := by
    refine ⟨Table.all_iff.mpr fun item hitem => ?_, fun user_id id hlists => ?_⟩
    · obtain rfl := List.mem_singleton.mp hitem
      exact ⟨_, rfl, List.mem_singleton.mpr rfl⟩
    · obtain ⟨ids, hids, hmem⟩ := hlists
      obtain ⟨user, huser, rfl⟩ := Option.map_eq_some_iff.mp hids
      obtain ⟨rfl, rfl⟩ := Prod.mk.inj (List.mem_singleton.mp (Table.get?_eq_some_iff.mp huser))
      obtain rfl := List.mem_singleton.mp hmem
      exact ⟨_, rfl⟩
  have hstart : Integration.startInteraction .silent sampleDomain 9 false
      ⟨"instance", "trace", 0, 1⟩ ()
      (fun _ => []) [] = .ok sampleStart := rfl
  have htask : ∀ action ∈ sampleDomain.task.actions, Integration.Given Unshared action.kwargs := by
    intro action haction
    rcases List.mem_pair.mp haction with rfl | rfl <;> trivial
  have hops : ∀ op ∈ sampleOps, op.Given Unshared := by
    intro op hop
    simp only [sampleOps, List.mem_cons, List.not_mem_nil, or_false] at hop
    rcases hop with rfl | rfl | rfl <;> trivial
  exact ⟨rollout_consistent hlinked (by decide +kernel) htask (List.forall_mem_nil _) hstart hops,
    by decide +kernel⟩

/-! ### The tools that write -/

/-- A call of a tool that the judge does not list as a write tool leaves the database. -/
theorem after_of_read {call : Call}
    (h : LlmJudge.isWriteTool call.name LlmJudge.WRITE_TOOLS = false) (db : Db) :
    after texts db call = db := by
  have hstep := invoke_step texts db call
  generalize (invoke texts call db).1 = out at hstep
  cases call with
  | bookReservation | cancelReservation | sendCertificate | updateReservationBaggages
  | updateReservationFlights | updateReservationPassengers =>
    rw [Call.name] at h
    exact absurd h (by decide)
  | getUserDetails user_id =>
    show (checked (entryOr db.users user_id _) (fun user => pure (.user user)) db).2 = db
    rcases entryOr db.users user_id "Error: user not found" with halt | user
    · exact checked_error rfl _ db
    · rfl
  | getReservationDetails id =>
    show (checked (entryOr db.reservations id _) (fun r => pure (.reservation r)) db).2 = db
    rcases entryOr db.reservations id "Error: user not found" with halt | r
    · exact checked_error rfl _ db
    · rfl
  | searchOnestopFlight origin destination date =>
    exact lift_bind_cases (P := fun out => out.2 = db) (fun _ _ => rfl) fun _ _ => rfl
  | calculate | listAllAirports | think | transferToHumanAgents | searchDirectFlight => rfl

/-- **The write tools are all that counts**: the other calls can be left out of a run. -/
theorem run_writes (db : Db) (calls : List Call) :
    run (after texts) db (calls.filter fun call =>
      LlmJudge.isWriteTool call.name LlmJudge.WRITE_TOOLS) = run (after texts) db calls := by
  induction calls generalizing db with
  | nil => rfl
  | cons call calls ih =>
    rw [List.filter_cons]
    split
    · exact ih (after texts db call)
    · next hread =>
      rw [ih db]
      show run (after texts) db calls = run (after texts) (after texts db call) calls
      rw [after_of_read texts (by simpa using hread) db]

/-- **The write tools are the tools that can change the database.** -/
theorem writes_iff (name : PyStr) :
    (∃ (texts : Texts) (db : Db) (call : Call), call.name = name ∧ after texts db call ≠ db) ↔
      LlmJudge.isWriteTool name LlmJudge.WRITE_TOOLS = true := by
  constructor
  · rintro ⟨texts, db, call, rfl, hchanged⟩
    by_contra hread
    exact hchanged (after_of_read texts (by simpa using hread) db)
  · intro hwrite
    have hmem : name ∈ LlmJudge.WRITE_TOOLS := by
      rw [LlmJudge.isWriteTool, Bool.or_eq_true] at hwrite
      rcases hwrite with hstar | hmem
      · exact absurd hstar (by decide)
      · simpa using hmem
    have hcall (call : Call) (hchanged : after sampleTexts sampleDb call ≠ sampleDb) :
        ∃ (texts : Texts) (db : Db) (call' : Call), call'.name = call.name ∧
          after texts db call' ≠ db :=
      ⟨sampleTexts, sampleDb, call, rfl, hchanged⟩
    simp only [LlmJudge.WRITE_TOOLS, List.mem_cons, List.not_mem_nil, or_false] at hmem
    rcases hmem with rfl | rfl | rfl | rfl | rfl | rfl
    · exact hcall (.bookReservation (sampleBooking ⟨"gift_card_3576581", 80⟩
        ⟨"certificate_4856383", 80⟩)) (by decide +kernel)
    · exact hcall (.cancelReservation "4WQ150") (by decide +kernel)
    · exact hcall (.updateReservationBaggages "4WQ150" 2 0 "gift_card_3576581") (by decide +kernel)
    · exact hcall (.updateReservationPassengers "4WQ150" [[]]) (by decide +kernel)
    · exact hcall (.updateReservationFlights "4WQ150" "economy" [] "gift_card_3576581")
        (by decide +kernel)
    · exact hcall (.sendCertificate "chen_jackson_3290" 50) (by decide +kernel)

/-! ### Searches and bookings -/

/-- A listed flight has seats for `n` passengers of a cabin, at a price. -/
def Listed.Offers (listed : Listed) (cabin : PyStr) (n : ℕ) (price : ℚ) : Prop :=
  ∃ seats prices available, listed.entry = .available seats prices ∧
    seats.get? cabin = some available ∧ n ≤ available ∧ prices.get? cabin = some price

/-- What can be booked. -/
theorem priceFlight_ok_iff {db : Db} {cabin number date : PyStr} {n : ℕ} {leg : Leg} :
    priceFlight db cabin n ⟨number, date⟩ = .ok leg ↔
      ∃ flight entry, db.flights.get? number = some flight ∧ flight.dates.get? date = some entry ∧
        Listed.Offers ⟨flight, entry⟩ cabin n leg.price ∧
        leg = ⟨flight.origin, flight.destination, number, date, leg.price⟩ := by
  constructor
  · intro h
    obtain ⟨flight, hflight, h⟩ := bind_eq_ok.mp h
    obtain ⟨flight_date, hdate, h⟩ := bind_eq_ok.mp h
    refine ⟨flight, flight_date, entryOr_eq_ok.mp hflight, entryOr_eq_ok.mp hdate, ?_⟩
    cases flight_date with
    | other => cases h
    | available seats prices =>
      obtain ⟨available, havailable, h⟩ := bind_eq_ok.mp h
      obtain ⟨⟨⟩, hseats, h⟩ := bind_eq_ok.mp h
      obtain ⟨price, hprice, h⟩ := bind_eq_ok.mp h
      obtain rfl := Except.ok.inj h
      exact ⟨⟨seats, prices, available, rfl, entry_eq_ok.mp havailable,
        by simpa using require_eq_ok.mp hseats, entry_eq_ok.mp hprice⟩, rfl⟩
  · rintro ⟨flight, _, hflight, hdate, ⟨seats, prices, available, rfl, havailable, hn, hprice⟩, hleg⟩
    rw [priceFlight, entryOr_eq_ok.mpr hflight, ok_bind, entryOr_eq_ok.mpr hdate, ok_bind]
    show (entry seats cabin >>= _ : Except Halt Leg) = _
    rw [entry_eq_ok.mpr havailable, ok_bind, require_eq_ok.mpr (by simpa using hn), ok_bind,
      entry_eq_ok.mpr hprice, ok_bind, hleg]

/-- What a direct search lists. -/
theorem mem_searchDirectFlight {db : Db} {origin destination date : PyStr} {listed : Listed} :
    listed ∈ db.allFlights.filterMap (direct origin destination date) ↔
      listed.flight ∈ db.allFlights ∧ listed.flight.origin = origin ∧
        listed.flight.destination = destination ∧
        listed.flight.dates.get? date = some listed.entry ∧
        ∃ seats prices, listed.entry = .available seats prices := by
  rw [List.mem_filterMap]
  constructor
  · rintro ⟨flight, hflight, hdirect⟩
    rw [direct] at hdirect
    split at hdirect
    · next hroute =>
      split at hdirect
      · next seats prices hentry =>
        obtain rfl := Option.some.inj hdirect
        exact ⟨hflight, hroute.1, hroute.2, hentry, seats, prices, rfl⟩
      · cases hdirect
    · cases hdirect
  · rintro ⟨hflight, horigin, hdestination, hentry, seats, prices, heq⟩
    refine ⟨listed.flight, hflight, ?_⟩
    rw [direct, if_pos ⟨horigin, hdestination⟩, hentry, heq]
    obtain ⟨flight, entry⟩ := listed
    obtain rfl : entry = _ := heq
    rfl

/-- A direct search between the ends of a leg lists its flight, with seats for `n` passengers of the
cabin, at the price of the leg. -/
def ListedFor (db : Db) (cabin : PyStr) (n : ℕ) (flight : FlightRef) (leg : Leg) : Prop :=
  ∃ results listed, (invoke texts (.searchDirectFlight leg.origin leg.destination flight.date) db).1 =
      .ok (.flights results) ∧ listed ∈ results ∧
    listed.flight.flight_number = flight.flight_number ∧ listed.Offers cabin n leg.price ∧
    leg.flight_number = flight.flight_number ∧ leg.date = flight.date

/-- A flight that can be booked is one that is listed with enough seats, also when other calls come
between the search and the booking. -/
theorem priceFlight_listed_iff {db : Db}
    (hkeys : db.flights.All fun number flight => flight.flight_number = number) (calls : List Call)
    {cabin : PyStr} {n : ℕ} {flight : FlightRef} {leg : Leg} :
    priceFlight (run (after texts) db calls) cabin n flight = .ok leg ↔
      ListedFor texts db cabin n flight leg := by
  obtain ⟨number, date⟩ := flight
  rw [priceFlight_ok_iff, flights_run]
  constructor
  · rintro ⟨flight, flight_date, hflight, hdate, hoffers, hleg⟩
    refine ⟨_, ⟨flight, flight_date⟩, rfl, mem_searchDirectFlight.mpr ⟨?_, ?_, ?_, hdate, ?_⟩, ?_⟩
    · exact List.mem_map.mpr ⟨(number, flight), Table.get?_eq_some_iff.mp hflight, rfl⟩
    · rw [hleg]
    · rw [hleg]
    · obtain ⟨seats, prices, -, heq, -⟩ := hoffers
      exact ⟨seats, prices, heq⟩
    · exact ⟨hkeys number flight hflight, hoffers, by rw [hleg], by rw [hleg]⟩
  · rintro ⟨results, ⟨flight, flight_date⟩, hsearch, hmem, hnumber, hoffers, hleg, hdate⟩
    obtain rfl := Reply.flights.inj (Except.ok.inj hsearch)
    obtain ⟨hflight, horigin, hdestination, hentry, -⟩ := mem_searchDirectFlight.mp hmem
    obtain ⟨⟨key, flight'⟩, hitem, rfl⟩ := List.mem_map.mp hflight
    have hget := Table.get?_eq_some_iff.mpr hitem
    obtain rfl : key = number := (hkeys key flight' hget).symm.trans hnumber
    refine ⟨flight', flight_date, hget, hentry, hoffers, ?_⟩
    rw [show flight'.origin = leg.origin from horigin,
      show flight'.destination = leg.destination from hdestination, show key =
        leg.flight_number from hleg.symm,
      show date = leg.date from hdate.symm]

/-- The payments of a booking are accepted: each is covered on its own, they come to the price, and
no certificate is listed twice. -/
structure Booking.Accepted (booking : Booking) (user : User) (legs : List Leg) : Prop where
  covered : ∀ payment ∈ booking.payment_methods, checkPayment user.payment_methods payment = .ok ()
  paid : booking.Paid legs
  once : ¬Repeats user.payment_methods booking.payment_methods

/-- When a booking goes through. -/
theorem bookReservation_ok_iff {db : Db} {booking : Booking} {r : Reservation} :
    (invoke texts (.bookReservation booking) db).1 = .ok (.reservation r) ↔
      ∃ user legs, checkBooking texts.numeral db booking = .ok (user, legs) ∧
        ¬Repeats user.payment_methods booking.payment_methods ∧
        r = booking.reservation (newReservationId db.reservations) legs := by
  have hpays : ∀ {user : User} {legs : List Leg},
      checkBooking texts.numeral db booking = .ok (user, legs) →
        ((∃ e methods, payAll booking.payment_methods user.payment_methods = (.error e, methods)) ↔
          Repeats user.payment_methods booking.payment_methods) := fun hchecks =>
    payAll_error_iff fun payment hpayment =>
      exists_checkPayment ((checkBooking_ok hchecks).2.1 payment hpayment)
  constructor
  · intro h
    obtain ⟨⟨user, legs⟩, hchecks, hrun⟩ := checked_reservation h
    change invoke texts (.bookReservation booking) db = _ at hrun
    rw [hrun] at h
    refine ⟨user, legs, hchecks, fun hrepeats => ?_, ?_⟩
    · obtain ⟨e, methods, hpaid⟩ := (hpays hchecks).mpr hrepeats
      simp only [hpaid] at h
      cases h
    · rcases hpaid : payAll booking.payment_methods user.payment_methods with ⟨e | ⟨⟩, methods⟩
      · simp only [hpaid] at h
        cases h
      · simp only [hpaid] at h
        exact (Reply.reservation.inj (Except.ok.inj h)).symm
  · rintro ⟨user, legs, hchecks, hrepeats, rfl⟩
    show (checked (checkBooking texts.numeral db booking) _ db).1 = _
    rw [checked_ok hchecks]
    rcases hpaid : payAll booking.payment_methods user.payment_methods with ⟨e | ⟨⟩, methods⟩
    · exact absurd ((hpays hchecks).mp ⟨e, methods, hpaid⟩) hrepeats
    · simp only [hpaid]
      rfl

/-- **A booking goes through** exactly when its user is known, its payments are accepted, and a
direct search lists each of its flights with enough seats: it is booked as it was listed, whatever
calls come between the searches and the booking. -/
theorem bookReservation_listed_iff {db : Db}
    (hkeys : db.flights.All fun number flight => flight.flight_number = number) (calls : List Call)
    {booking : Booking} {r : Reservation} :
    (invoke texts (.bookReservation booking) (run (after texts) db calls)).1 =
        .ok (.reservation r) ↔
      List.Forall₂ (ListedFor texts db booking.cabin booking.passengers.length) booking.flights
        r.flights ∧
      (∃ user, (run (after texts) db calls).users.get? booking.user_id = some user ∧
        booking.Accepted user r.flights) ∧
      r = booking.reservation (newReservationId (run (after texts) db calls).reservations)
        r.flights := by
  have hlisted : ∀ legs,
      booking.flights.mapM (priceFlight (run (after texts) db calls) booking.cabin
        booking.passengers.length) = .ok legs ↔
      List.Forall₂ (ListedFor texts db booking.cabin booking.passengers.length)
        booking.flights legs :=
    fun legs => by simp only [mapM_eq_ok_iff_forall₂, priceFlight_listed_iff texts hkeys calls]
  rw [bookReservation_ok_iff]
  constructor
  · rintro ⟨user, legs, hchecks, hrepeats, rfl⟩
    obtain ⟨hlegs, huser, hcovered, hpaid⟩ := checkBooking_eq_ok.mp hchecks
    exact ⟨(hlisted legs).mp hlegs, ⟨user, huser, hcovered, hpaid, hrepeats⟩, rfl⟩
  · rintro ⟨hlegs, ⟨user, huser, haccepted⟩, hr⟩
    exact ⟨user, r.flights, checkBooking_eq_ok.mpr
      ⟨(hlisted _).mpr hlegs, huser, haccepted.covered, haccepted.paid⟩, haccepted.once, hr⟩

/-- Two seats are booked after a cancellation: they were listed. Four are refused, although the
flight is listed. -/
theorem bookReservation_listed_sample :
    (∃ results listed, (invoke sampleTexts (.searchDirectFlight "DFW" "LAX" "2024-05-22") sampleDb).1 =
        .ok (.flights results) ∧ listed ∈ results ∧ listed.flight.flight_number = "HAT170" ∧
      listed.Offers "economy" 2 80) ∧
    ∀ r, (invoke sampleTexts (.bookReservation
        { sampleBooking ⟨"gift_card_3576581", 80⟩ ⟨"certificate_4856383", 80⟩ with
          passengers := [[], [], [], []] })
      (run (after sampleTexts) sampleDb [.cancelReservation "4WQ150"])).1 ≠ .ok
        (.reservation r) := by
  have hkeys : sampleDb.flights.All fun number flight => flight.flight_number = number := by
    decide +kernel
  constructor
  · have hbooked : (invoke sampleTexts (.bookReservation
        (sampleBooking ⟨"gift_card_3576581", 80⟩ ⟨"certificate_4856383", 80⟩))
        (run (after sampleTexts) sampleDb [.cancelReservation "4WQ150"])).1 =
          .ok (.reservation ((sampleBooking ⟨"gift_card_3576581", 80⟩
            ⟨"certificate_4856383", 80⟩).reservation "HATHAT"
              [⟨"DFW", "LAX", "HAT170", "2024-05-22", 80⟩])) := by decide +kernel
    obtain ⟨hlegs, -⟩ := (bookReservation_listed_iff sampleTexts hkeys [.cancelReservation "4WQ150"]).mp
      hbooked
    obtain ⟨⟨results, listed, hsearch, hmem, hnumber, hoffers, -⟩, -⟩ := List.forall₂_cons.mp hlegs
    exact ⟨results, listed, hsearch, hmem, hnumber, hoffers⟩
  · intro r h
    have hrefused : (invoke sampleTexts (.bookReservation
        { sampleBooking ⟨"gift_card_3576581", 80⟩ ⟨"certificate_4856383", 80⟩ with
          passengers := [[], [], [], []] })
      (run (after sampleTexts) sampleDb [.cancelReservation "4WQ150"])).1 =
        .ok (.error "Error: not enough seats on flight HAT170") := by decide +kernel
    rw [hrefused] at h
    cases h

end Airline

end ToolAgent
