import CloudMesh.Pricing
import Mathlib.Data.List.Induction
import Mathlib.Data.List.Nodup
import Mathlib.Logic.Function.Basic

/-!
# Invoices and the order of Stripe's events

`processStripeWebhookEvent` of `apps/api/src/modules/billing/service.ts`. An event that has been
seen is left out; any other one about the invoice overwrites its status and its amount. So the
invoice is what the first event has created with the status and the amount of the event that was
new last, and it does not depend on the order of the events only if they all write the same.

## Main definitions

- `processStripeWebhookEvent` — the effect of one event on the tables
- `receive` — the events of the deliveries, one after the other
- `About` — events about one invoice of a known customer
- `Settled` — the invoice depends on the events only
- `settled_iff` — when it does
-/

namespace CloudMesh.Billing

/-! ## Tables -/

inductive InvoiceStatus
  | pending
  | paid
  | failed
  deriving DecidableEq

/-- The invoice of an event; times are in seconds and amounts in cents. -/
structure StripeInvoiceObject where
  id : String
  customer : String
  periodStart : ℤ
  periodEnd : ℤ
  amountDue : Option ℤ
  amountPaid : Option ℤ
  deriving DecidableEq

structure StripeWebhookEvent where
  id : String
  type : String
  object : StripeInvoiceObject
  deriving DecidableEq

/-- A row of `invoices` without its id; times are in milliseconds. -/
structure Invoice where
  orgId : String
  stripeInvoiceId : String
  periodStart : ℤ
  periodEnd : ℤ
  amountUsd : ℚ
  status : InvoiceStatus
  deriving DecidableEq

structure Organization where
  id : String
  stripeCustomerId : Option String
  deriving DecidableEq

/-- The tables; `invoices` has at most one row for each `stripeInvoiceId`. -/
structure Db where
  stripeEvents : List (String × String)
  organizations : List Organization
  invoices : String → Option Invoice

/-! ## `service.ts` -/

/-- `EVENT_STATUS`. Under a name that every object inherits the code finds what is inherited. -/
def eventStatus (type : String) : Option InvoiceStatus :=
  match type with
  | "invoice.created" => some .pending
  | "invoice.paid" => some .paid
  | "invoice.payment_failed" => some .failed
  | _ => none

structure WebhookProcessResult where
  processed : Bool
  reason : Option String
  deriving DecidableEq

namespace StripeInvoiceObject

variable (object : StripeInvoiceObject)

def amountCents : ℤ := object.amountPaid.getD (object.amountDue.getD 0)

/-- The `upsert` of the invoice. -/
def upsert (orgId : String) (status : InvoiceStatus) : Option Invoice → Invoice
  | none => ⟨orgId, object.id, object.periodStart * 1000, object.periodEnd * 1000,
      object.amountCents / 100, status⟩
  | some row => { row with status := status, amountUsd := object.amountCents / 100 }

end StripeInvoiceObject

def Db.findOrg (db : Db) (customer : String) : Option Organization :=
  db.organizations.find? fun org => org.stripeCustomerId = some customer

def Db.seen (db : Db) (eventId : String) : Bool := db.stripeEvents.any fun row => row.1 = eventId

def noOrganization (customer : String) : WebhookProcessResult :=
  ⟨false, some ("no organization found for Stripe customer " ++ customer)⟩

/-- `none` is an exception: the database takes no inherited property for a status. -/
def processStripeWebhookEvent (db : Db) (event : StripeWebhookEvent) :
    Option WebhookProcessResult × Db :=
  if db.seen event.id then (some ⟨false, some "duplicate event (already processed)"⟩, db)
  else
    let db := { db with stripeEvents := (event.id, event.type) :: db.stripeEvents }
    match eventStatus event.type, db.findOrg event.object.customer with
    | some status, some org => (some ⟨true, none⟩, { db with
        invoices := Function.update db.invoices event.object.id
          (some (event.object.upsert org.id status (db.invoices event.object.id))) })
    | some _, none => (some (noOrganization event.object.customer), db)
    | none, org =>
      if event.type ∉ inheritedProperties then
        (some ⟨false, some ("unhandled event type: " ++ event.type)⟩, db)
      else if org = none then (some (noOrganization event.object.customer), db)
      else (none, db)

/-! ## Deliveries -/

section Definitions

variable (db : Db) (org : Organization) (invoiceId : String) (events : List StripeWebhookEvent)

def receive : List StripeWebhookEvent → Db :=
  List.foldl (fun db event => (processStripeWebhookEvent db event).2) db

/-- New events about one invoice of a customer that belongs to the organization. -/
structure About : Prop where
  ids : (events.map StripeWebhookEvent.id).Nodup
  unseen : ∀ event ∈ events, db.seen event.id = false
  handled : ∀ event ∈ events, ∃ status, eventStatus event.type = some status
  invoice : ∀ event ∈ events, event.object.id = invoiceId
  known : ∀ event ∈ events, db.findOrg event.object.customer = some org

/-- What the event makes of the row of the invoice. -/
def StripeWebhookEvent.write (event : StripeWebhookEvent) (row : Option Invoice) :
    Option Invoice :=
  (eventStatus event.type).map fun status => event.object.upsert org.id status row

/-- The row is the same after all events in whatever order and however often each is delivered, and
once the invoice has been paid it stays so. -/
structure Settled : Prop where
  same : ∀ ds ds' : List StripeWebhookEvent, (∀ event, event ∈ ds ↔ event ∈ events) →
    (∀ event, event ∈ ds' ↔ event ∈ events) →
      (receive db ds).invoices invoiceId = (receive db ds').invoices invoiceId
  paid : ∀ ds : List StripeWebhookEvent, (∀ event ∈ ds, event ∈ events) → ∀ event ∈ ds,
    eventStatus event.type = some .paid → ∃ row, (receive db ds).invoices invoiceId = some row ∧
      row.status = .paid ∧ row.amountUsd = event.object.amountCents / 100

end Definitions

section Deliveries

variable {db : Db} {org : Organization} {invoiceId : String} {events ds : List StripeWebhookEvent}
  {first last event : StripeWebhookEvent}

theorem receive_append (ds ds' : List StripeWebhookEvent) :
    receive db (ds ++ ds') = receive (receive db ds) ds' :=
  List.foldl_append

/-- The events that have been received have been seen, and nobody else has joined. -/
structure Received (db : Db) (events ds : List StripeWebhookEvent) : Prop where
  organizations : (receive db ds).organizations = db.organizations
  seen : ∀ event ∈ events, (receive db ds).seen event.id = true ↔ event ∈ ds

theorem process_of_seen (h : db.seen event.id = true) :
    (processStripeWebhookEvent db event).2 = db := by
  unfold processStripeWebhookEvent
  rw [if_pos h]

/-- A new event writes the row. -/
theorem process_of_new {status : InvoiceStatus} (hnew : db.seen event.id = false)
    (hstatus : eventStatus event.type = some status)
    (hknown : db.findOrg event.object.customer = some org) :
    (processStripeWebhookEvent db event).2 =
      { db with
        stripeEvents := (event.id, event.type) :: db.stripeEvents
        invoices := Function.update db.invoices event.object.id
          (some (event.object.upsert org.id status (db.invoices event.object.id))) } := by
  have hknown' : ({ db with stripeEvents := (event.id, event.type) :: db.stripeEvents } :
      Db).findOrg event.object.customer = some org := hknown
  simp only [processStripeWebhookEvent, hnew, Bool.false_eq_true, if_false, hstatus, hknown']

theorem received_nil (habout : About db org invoiceId events) : Received db events [] :=
  ⟨rfl, fun event hevent => by simp [receive, habout.unseen event hevent]⟩

theorem findOrg_of_received (habout : About db org invoiceId events)
    (hreceived : Received db events ds) (hevent : event ∈ events) :
    (receive db ds).findOrg event.object.customer = some org := by
  unfold Db.findOrg
  rw [hreceived.organizations]
  exact habout.known event hevent

theorem received_snoc (habout : About db org invoiceId events) (hreceived : Received db events ds)
    (hevent : event ∈ events) : Received db events (ds ++ [event]) := by
  have hstep : receive db (ds ++ [event]) = (processStripeWebhookEvent (receive db ds) event).2 :=
    receive_append ds [event]
  cases hseen : (receive db ds).seen event.id with
  | true =>
    rw [process_of_seen hseen] at hstep
    refine ⟨by rw [hstep, hreceived.organizations], fun other hother => ?_⟩
    rw [hstep, hreceived.seen other hother, List.mem_append, List.mem_singleton]
    refine ⟨.inl, fun h => h.elim id ?_⟩
    rintro rfl
    exact (hreceived.seen other hother).mp hseen
  | false =>
    obtain ⟨status, hstatus⟩ := habout.handled event hevent
    rw [process_of_new hseen hstatus (findOrg_of_received habout hreceived hevent)] at hstep
    refine ⟨by rw [hstep]; exact hreceived.organizations, fun other hother => ?_⟩
    have hsame : event.id = other.id ↔ other = event :=
      ⟨fun h => List.inj_on_of_nodup_map habout.ids hother hevent h.symm, fun h => h ▸ rfl⟩
    rw [hstep, List.mem_append, List.mem_singleton, ← hsame, ← hreceived.seen other hother]
    simp [Db.seen, or_comm]

theorem received_of_subset (habout : About db org invoiceId events) (ds : List StripeWebhookEvent)
    (hds : ∀ event ∈ ds, event ∈ events) : Received db events ds := by
  induction ds using List.reverseRecOn with
  | nil => exact received_nil habout
  | append_singleton ds event ih =>
    exact received_snoc habout (ih fun other hother => hds other (List.mem_append_left _ hother))
      (hds event (List.mem_append_right _ (List.mem_singleton_self event)))

/-- The row after an event that is new. -/
theorem invoice_of_new (habout : About db org invoiceId events)
    (hds : ∀ event ∈ ds, event ∈ events) (hevent : event ∈ events) (hnew : event ∉ ds) :
    (receive db (ds ++ [event])).invoices invoiceId =
      event.write org ((receive db ds).invoices invoiceId) := by
  have hreceived := received_of_subset habout ds hds
  have hunseen : (receive db ds).seen event.id = false := by
    rw [← Bool.not_eq_true, hreceived.seen event hevent]
    exact hnew
  obtain ⟨status, hstatus⟩ := habout.handled event hevent
  have hstep : receive db (ds ++ [event]) = (processStripeWebhookEvent (receive db ds) event).2 :=
    receive_append ds [event]
  rw [hstep, process_of_new hunseen hstatus (findOrg_of_received habout hreceived hevent),
    StripeWebhookEvent.write, hstatus, ← habout.invoice event hevent]
  exact Function.update_self _ _ _

/-- The row after an event that has been received before. -/
theorem invoice_of_old (habout : About db org invoiceId events)
    (hds : ∀ event ∈ ds, event ∈ events) (hold : event ∈ ds) :
    (receive db (ds ++ [event])).invoices invoiceId = (receive db ds).invoices invoiceId := by
  have hreceived := received_of_subset habout ds hds
  have hstep : receive db (ds ++ [event]) = (processStripeWebhookEvent (receive db ds) event).2 :=
    receive_append ds [event]
  rw [hstep, process_of_seen ((hreceived.seen event (hds event hold)).mpr hold)]

/-- The first event creates the row, and the last new one has overwritten it. -/
theorem invoice_of_first (habout : About db org invoiceId events) (ds : List StripeWebhookEvent)
    (hds : ∀ event ∈ first :: ds, event ∈ events) : ∃ last ∈ first :: ds,
      (receive db (first :: ds)).invoices invoiceId =
        last.write org (first.write org (db.invoices invoiceId)) := by
  induction ds using List.reverseRecOn with
  | nil =>
    refine ⟨first, List.mem_cons_self, ?_⟩
    have hfirst := hds first List.mem_cons_self
    obtain ⟨status, hstatus⟩ := habout.handled first hfirst
    have hrow : (receive db [first]).invoices invoiceId =
        first.write org (db.invoices invoiceId) :=
      invoice_of_new habout (fun _ h => absurd h List.not_mem_nil) hfirst List.not_mem_nil
    rw [hrow]
    simp only [StripeWebhookEvent.write, hstatus, Option.map_some]
    cases db.invoices invoiceId <;> rfl
  | append_singleton ds event ih =>
    have hsub : ∀ other ∈ first :: ds, other ∈ events := by
      intro other hother
      refine hds other ?_
      rw [← List.cons_append]
      exact List.mem_append_left _ hother
    have hevent : event ∈ events := hds event (by simp)
    obtain ⟨last, hlast, hrow⟩ := ih hsub
    have hmem : ∀ other ∈ first :: ds, other ∈ first :: (ds ++ [event]) := by
      intro other hother
      rw [← List.cons_append]
      exact List.mem_append_left _ hother
    rw [← List.cons_append]
    by_cases hold : event ∈ first :: ds
    · exact ⟨last, hmem last hlast, (invoice_of_old habout hsub hold).trans hrow⟩
    · refine ⟨event, by simp, ?_⟩
      obtain ⟨status, hstatus⟩ := habout.handled last (hsub last hlast)
      obtain ⟨status', hstatus'⟩ := habout.handled first (hsub first List.mem_cons_self)
      obtain ⟨status'', hstatus''⟩ := habout.handled event hevent
      rw [invoice_of_new habout hsub hevent hold, hrow]
      simp only [StripeWebhookEvent.write, hstatus, hstatus', hstatus'', Option.map_some]
      rfl

/-! ### Events that write the same -/

/-- If all events write the same row, it is the row after any of them. -/
theorem invoice_of_alike (habout : About db org invoiceId events)
    (halike : ∀ event ∈ events, ∀ event' ∈ events,
      event.write org (db.invoices invoiceId) = event'.write org (db.invoices invoiceId))
    (hds : ∀ event ∈ ds, event ∈ events) (hevent : event ∈ ds) :
    (receive db ds).invoices invoiceId = event.write org (db.invoices invoiceId) := by
  cases ds with
  | nil => cases hevent
  | cons first ds =>
    obtain ⟨last, hlast, hrow⟩ := invoice_of_first habout ds hds
    have hfirst := hds first List.mem_cons_self
    rw [hrow, halike event (hds event hevent) first hfirst]
    have hsame := halike last (hds last hlast) first hfirst
    obtain ⟨status, hstatus⟩ := habout.handled last (hds last hlast)
    obtain ⟨status', hstatus'⟩ := habout.handled first hfirst
    simp only [StripeWebhookEvent.write, hstatus, hstatus', Option.map_some,
      Option.some.injEq] at hsame ⊢
    rw [← hsame]
    cases db.invoices invoiceId <;> rfl

/-- The events, with the first and the last of them chosen. -/
theorem invoice_of_ends (habout : About db org invoiceId events) (hfirst : first ∈ events)
    (hlast : last ∈ events) (hne : first ≠ last) :
    ∃ ds, (∀ event, event ∈ ds ↔ event ∈ events) ∧ (receive db ds).invoices invoiceId =
      last.write org (first.write org (db.invoices invoiceId)) := by
  let middle := events.filter fun event => event ≠ first ∧ event ≠ last
  have hmiddle : ∀ event, event ∈ middle ↔ event ∈ events ∧ event ≠ first ∧ event ≠ last := by
    intro event
    simp [middle]
  have hsub : ∀ event ∈ first :: middle, event ∈ events := by
    intro event hevent
    rcases List.mem_cons.mp hevent with rfl | hevent
    · exact hfirst
    · exact ((hmiddle event).mp hevent).1
  have hnew : last ∉ first :: middle := by
    intro hmem
    rcases List.mem_cons.mp hmem with heq | hmem
    · exact hne heq.symm
    · exact ((hmiddle last).mp hmem).2.2 rfl
  refine ⟨(first :: middle) ++ [last], fun event => ?_, ?_⟩
  · simp only [List.cons_append, List.mem_cons, List.mem_append, hmiddle, List.not_mem_nil,
      or_false]
    constructor
    · rintro (rfl | ⟨h, -⟩ | rfl)
      · exact hfirst
      · exact h
      · exact hlast
    · intro h
      by_cases h₁ : event = first
      · exact .inl h₁
      · by_cases h₂ : event = last
        · exact .inr (.inr h₂)
        · exact .inr (.inl ⟨h, h₁, h₂⟩)
  · obtain ⟨event, hevent, hrow⟩ := invoice_of_first habout middle hsub
    obtain ⟨status, hstatus⟩ := habout.handled event (hsub event hevent)
    obtain ⟨status', hstatus'⟩ := habout.handled first hfirst
    obtain ⟨status'', hstatus''⟩ := habout.handled last hlast
    rw [invoice_of_new habout hsub hlast hnew, hrow]
    simp only [StripeWebhookEvent.write, hstatus, hstatus', hstatus'', Option.map_some]
    rfl

theorem alike_of_same (habout : About db org invoiceId events)
    (hsettled : Settled db invoiceId events) : ∀ event ∈ events, ∀ event' ∈ events,
      event.write org (db.invoices invoiceId) = event'.write org (db.invoices invoiceId) := by
  intro event hevent event' hevent'
  by_cases hne : event = event'
  · rw [hne]
  · obtain ⟨ds, hds, hrow⟩ := invoice_of_ends habout hevent hevent' hne
    obtain ⟨ds', hds', hrow'⟩ := invoice_of_ends habout hevent' hevent (Ne.symm hne)
    have hsame := hrow.symm.trans ((hsettled.same ds ds' hds hds').trans hrow')
    obtain ⟨status, hstatus⟩ := habout.handled event hevent
    obtain ⟨status', hstatus'⟩ := habout.handled event' hevent'
    simp only [StripeWebhookEvent.write, hstatus, hstatus', Option.map_some,
      Option.some.injEq] at hsame ⊢
    cases hold : db.invoices invoiceId with
    | none =>
      rw [hold] at hsame
      simp only [StripeInvoiceObject.upsert, Invoice.mk.injEq] at hsame ⊢
      exact ⟨hsame.1, hsame.2.1, hsame.2.2.1, hsame.2.2.2.1, hsame.2.2.2.2.1.symm,
        hsame.2.2.2.2.2.symm⟩
    | some row =>
      rw [hold] at hsame
      simp only [StripeInvoiceObject.upsert, Invoice.mk.injEq] at hsame ⊢
      exact ⟨trivial, trivial, trivial, trivial, hsame.2.2.2.2.1.symm, hsame.2.2.2.2.2.symm⟩

end Deliveries

/-- The invoice depends on the events only if all of them write the same row. -/
theorem settled_iff (db : Db) (org : Organization) (invoiceId : String)
    (events : List StripeWebhookEvent) (habout : About db org invoiceId events) :
    Settled db invoiceId events ↔ ∀ event ∈ events, ∀ event' ∈ events,
      event.write org (db.invoices invoiceId) = event'.write org (db.invoices invoiceId) := by
  refine ⟨alike_of_same habout, fun halike => ⟨fun ds ds' hds hds' => ?_, ?_⟩⟩
  · cases ds with
    | nil =>
      cases ds' with
      | nil => rfl
      | cons event ds' =>
        have hmem := (hds event).mpr ((hds' event).mp List.mem_cons_self)
        cases hmem
    | cons event ds =>
      have hmem := (hds' event).mpr ((hds event).mp List.mem_cons_self)
      rw [invoice_of_alike habout halike (fun e => (hds e).mp) List.mem_cons_self,
        invoice_of_alike habout halike (fun e => (hds' e).mp) hmem]
  · intro ds hds event hevent hpaid
    rw [invoice_of_alike habout halike hds hevent, StripeWebhookEvent.write, hpaid]
    cases db.invoices invoiceId <;> exact ⟨_, rfl, rfl, rfl⟩

/-! ### A payment that failed first -/

/-- One organization, and no invoices. -/
def oneCustomer : Db := ⟨[], [⟨"org-1", some "cus_123"⟩], fun _ => none⟩

def invoiceEvent (id type : String) (amountPaid : ℤ) : StripeWebhookEvent :=
  ⟨id, type, ⟨"in_abc", "cus_123", 1700000000, 1702592000, some 4900, some amountPaid⟩⟩

/-- Two attempts that failed make the same row in either order. -/
theorem settled_iff_twoFailures : Settled oneCustomer "in_abc"
    [invoiceEvent "evt_failed_1" "invoice.payment_failed" 0,
      invoiceEvent "evt_failed_2" "invoice.payment_failed" 0] := by
  refine (settled_iff oneCustomer ⟨"org-1", some "cus_123"⟩ "in_abc" _ ?_).mpr ?_
  · refine ⟨by decide, by decide, ?_, by decide, by decide⟩
    intro event hevent
    rcases List.mem_pair.mp hevent with rfl | rfl <;> exact ⟨.failed, rfl⟩
  · intro event hevent event' hevent'
    rcases List.mem_pair.mp hevent with rfl | rfl <;>
      rcases List.mem_pair.mp hevent' with rfl | rfl <;> rfl

theorem settled_fails : ¬Settled oneCustomer "in_abc"
    [invoiceEvent "evt_failed_1" "invoice.payment_failed" 0,
      invoiceEvent "evt_paid_1" "invoice.paid" 4900] := by
  intro h
  obtain ⟨row, hrow, hstatus, -⟩ := h.paid [invoiceEvent "evt_paid_1" "invoice.paid" 4900,
    invoiceEvent "evt_failed_1" "invoice.payment_failed" 0] (by decide)
    (invoiceEvent "evt_paid_1" "invoice.paid" 4900) List.mem_cons_self rfl
  have hlate : (receive oneCustomer [invoiceEvent "evt_paid_1" "invoice.paid" 4900,
      invoiceEvent "evt_failed_1" "invoice.payment_failed" 0]).invoices "in_abc" =
        some ⟨"org-1", "in_abc", 1700000000000, 1702592000000, 0, .failed⟩ := by
    decide +kernel
  cases hlate.symm.trans hrow
  cases hstatus

end CloudMesh.Billing
