import CloudMesh.Webhooks.Dispatch

/-!
# Deliveries of one event

The bus delivers a message again after every delivery that it has no acknowledgement of, and to any
number of consumers. Each delivery fans the event out as if it were new: one delivery writes at most
one row for each endpoint, and it has written all of them when it acknowledges the message, but
nothing keeps a second one from writing the same rows again.

## Main definitions

- `subscribers` — any number of deliveries of any messages
- `FansOutOnce` — one row for each event and endpoint, and all of them after an acknowledgement
- `WritesAlone` — the condition on the steps
- `fansOutOnce_of_writesAlone` — every run that keeps the condition
-/

namespace CloudMesh.Webhooks.Dispatch

open Concurrent

/-! ## The system -/

inductive Drift
  | register (endpoint : WebhookEndpoint)
  | delete (endpointId : String)

/-- Every process is one delivery of a message. -/
def subscribers : System sig Pid Store Input Drift (Option Message) (Except String Unit) where
  exec := exec
  drift
    | .register endpoint, s => s.register endpoint
    | .delete endpointId, s => some (s.delete endpointId)
  code _ message := (pump message).run

abbrev SubConfig := Config sig Pid Store (Option Message) (Except String Unit)

/-! ## What is promised -/

section Promise

variable (c : SubConfig)

/-- The event of the bus that the process is a delivery of. -/
def eventOf (p : Pid) : Option String :=
  (c.procs p).bind fun P => P.op.map fun message => message.envelope.eventId

/-- The rows for the endpoint that deliveries of the event have written. -/
def rowsOf (eventId endpointId : String) : List (Pid × WebhookDelivery) :=
  c.world.shared.webhookDeliveries.filter fun row =>
    eventOf c row.1 = some eventId ∧ row.2.webhookEndpointId = endpointId

/-- The handler goes on with the message. -/
structure Dispatched (message : Message) (orgId : String) (eventType : WebhookEventType) :
    Prop where
  typed : WebhookEventType.ofName? message.envelope.eventType = some eventType
  owned : message.orgId = some orgId
  named : orgId ≠ ""

/-- There is one delivery series for each event and endpoint, and a delivery that has acknowledged
its message has written a row for every endpoint that it was told of, unless the endpoint has been
deleted since. -/
structure FansOutOnce : Prop where
  once : ∀ eventId endpointId, (rowsOf c eventId endpointId).length ≤ 1
  complete : ∀ p P message orgId eventType r, c.procs p = some P → P.op = some message →
    Dispatched message orgId eventType → (⟨p, .ack, r⟩ : Event sig Pid) ∈ c.world.history →
      ∃ endpoints, (⟨p, .findEndpoints orgId eventType, .ok endpoints⟩ : Event sig Pid) ∈
          c.world.history ∧
        ∀ endpoint ∈ endpoints, endpoint.id ∈ c.world.shared.deleted ∨
          ∃ delivery, (p, delivery) ∈ c.world.shared.webhookDeliveries ∧
            delivery.webhookEndpointId = endpoint.id

/-- A delivery writes a row only if no other delivery of the event has written one. -/
def WritesAlone : Action sig Pid Drift (Option Message) → Prop
  | .command ⟨p, .createDelivery .., _⟩ => ∀ row ∈ c.world.shared.webhookDeliveries,
    eventOf c row.1 = eventOf c p → row.1 = p
  | _ => True

instance (a : Action sig Pid Drift (Option Message)) : Decidable (WritesAlone c a) := by
  unfold WritesAlone
  split <;> infer_instance

end Promise

/-! ## Following the code -/

section Triples

variable {message : Message} {orgId : String} {eventType : WebhookEventType} {payload : String}
  {eventId : String} {endpoints rest : List WebhookEndpoint} {endpoint : WebhookEndpoint}
  {t : Transcript sig}

/-- The process has written, or has tried to write, a row for the endpoint. -/
def Tried (t : Transcript sig) (endpointId : String) : Prop :=
  ∃ orgId eventId r, (⟨.createDelivery orgId endpointId eventId, r⟩ : Exchange sig) ∈ t

def Wrote (t : Transcript sig) (endpointId : String) : Prop :=
  ∃ orgId eventId id, (⟨.createDelivery orgId endpointId eventId, .ok id⟩ : Exchange sig) ∈ t

/-- All endpoints that the process has been told of have their rows. -/
def Served (message : Message) (t : Transcript sig) : Prop :=
  ∀ orgId eventType, Dispatched message orgId eventType → ∃ endpoints,
    (⟨.findEndpoints orgId eventType, .ok endpoints⟩ : Exchange sig) ∈ t ∧
      ∀ endpoint ∈ endpoints, Wrote t endpoint.id

/-- No endpoint is written twice if the endpoints differ, and an acknowledgement comes last. -/
def DispatchRule (message : Option Message) (t : Transcript sig) : Cmd → Prop
  | .createDelivery _ endpointId _ => ∃ orgId eventType endpoints,
    (⟨.findEndpoints orgId eventType, .ok endpoints⟩ : Exchange sig) ∈ t ∧
      ((endpoints.map WebhookEndpoint.id).Nodup → ¬Tried t endpointId)
  | .ack => ∀ m, message = some m → Served m t
  | _ => True

/-- Of the endpoints, the last ones are left to be served. -/
def Serving (orgId : String) (eventType : WebhookEventType) (endpoints rest : List WebhookEndpoint)
    (t : Transcript sig) : Prop :=
  (⟨.findEndpoints orgId eventType, .ok endpoints⟩ : Exchange sig) ∈ t ∧
    ∃ served, endpoints = served ++ rest ∧ (∀ endpoint ∈ served, Wrote t endpoint.id) ∧
      ∀ endpointId, Tried t endpointId → endpointId ∈ served.map WebhookEndpoint.id

theorem Wrote.cons {endpointId : String} (h : Wrote t endpointId) (e : Exchange sig) :
    Wrote (e :: t) endpointId := by
  obtain ⟨orgId, eventId, id, hmem⟩ := h
  exact ⟨orgId, eventId, id, List.mem_cons_of_mem _ hmem⟩

theorem Tried.of_cons {endpointId : String} {c : Cmd} {r : sig.Ans c}
    (h : Tried (⟨c, r⟩ :: t) endpointId) :
    (∃ orgId eventId, c = .createDelivery orgId endpointId eventId) ∨ Tried t endpointId := by
  obtain ⟨orgId, eventId, r', hmem⟩ := h
  rcases List.mem_cons.mp hmem with heq | hmem
  · cases heq
    exact .inl ⟨orgId, eventId, rfl⟩
  · exact .inr ⟨orgId, eventId, r', hmem⟩

theorem dispatchTo_triple (m : Option Message) : Handler.Triple (DispatchRule m)
    (Serving orgId eventType endpoints (endpoint :: rest))
    (dispatchTo orgId eventType payload eventId endpoint)
    (fun _ => Serving orgId eventType endpoints rest) fun _ _ => True := by
  refine Handler.Triple.bind (Q := fun _ => Serving orgId eventType endpoints rest) ?_
    fun deliveryId => ?_
  · refine Program.Triple.call (fun t ht => ?_) fun t r ht => ?_
    · obtain ⟨hread, served, heq, -, htried⟩ := ht
      refine ⟨orgId, eventType, endpoints, hread, fun hnodup htwice => ?_⟩
      rw [heq, List.map_append, List.nodup_append] at hnodup
      exact hnodup.2.2 _ (htried _ htwice) _ List.mem_cons_self rfl
    · cases r with
      | error err => trivial
      | ok id =>
        obtain ⟨hread, served, heq, hwrote, htried⟩ := ht
        refine ⟨List.mem_cons_of_mem _ hread, served ++ [endpoint], ?_, ?_, ?_⟩
        · rw [heq, List.append_assoc]
          rfl
        · intro other hother
          rcases List.mem_append.mp hother with hold | hnew
          · exact (hwrote other hold).cons _
          · cases List.mem_singleton.mp hnew
            exact ⟨orgId, eventId, id, List.mem_cons_self⟩
        · intro endpointId h
          rw [List.map_append, List.mem_append]
          rcases h.of_cons with ⟨o, e, hc⟩ | hold
          · cases hc
            exact .inr (List.mem_singleton_self _)
          · exact .inl (htried endpointId hold)
  · refine Program.Triple.call (fun _ _ => trivial) fun t r ht => ?_
    cases r with
    | error err => trivial
    | ok =>
      obtain ⟨hread, served, heq, hwrote, htried⟩ := ht
      refine ⟨List.mem_cons_of_mem _ hread, served, heq, fun other hother =>
        (hwrote other hother).cons _, fun endpointId h => ?_⟩
      rcases h.of_cons with ⟨o, e, hc⟩ | hold
      · cases hc
      · exact htried endpointId hold

theorem dispatchAll_triple (m : Option Message) (rest : List WebhookEndpoint) :
    Handler.Triple (DispatchRule m) (Serving orgId eventType endpoints rest)
      (dispatchAll orgId eventType payload eventId rest)
      (fun _ => Serving orgId eventType endpoints []) fun _ _ => True := by
  induction rest with
  | nil => exact .pure fun _ h => h
  | cons endpoint rest ih => exact (dispatchTo_triple m).bind fun _ => ih

/-- The process has not tried to write anything. -/
def Untried (t : Transcript sig) : Prop := ∀ endpointId, ¬Tried t endpointId

theorem dispatchWebhookEvent_triple (m : Option Message) : Handler.Triple (DispatchRule m) Untried
    (dispatchWebhookEvent orgId eventType payload) (fun _ t => ∃ endpoints,
      (⟨.findEndpoints orgId eventType, .ok endpoints⟩ : Exchange sig) ∈ t ∧
        ∀ endpoint ∈ endpoints, Wrote t endpoint.id) fun _ _ => True := by
  have hquiet : ∀ {c : Cmd} {r : sig.Ans c} {t : Transcript sig}, Untried t →
      (∀ orgId endpointId eventId, c ≠ .createDelivery orgId endpointId eventId) →
        Untried (⟨c, r⟩ :: t) := by
    intro c r t ht hc endpointId h
    rcases h.of_cons with ⟨o, e, heq⟩ | hold
    · exact hc o endpointId e heq
    · exact ht endpointId hold
  refine Handler.Triple.bind (Q := fun _ => Untried) ?_ fun eventId => ?_
  · refine Program.Triple.call (fun _ _ => trivial) fun t r ht => ?_
    cases r with
    | error err => trivial
    | ok id => exact hquiet ht nofun
  · refine Handler.Triple.bind (Q := fun endpoints => Serving orgId eventType endpoints endpoints)
      ?_ fun endpoints => ?_
    · refine Program.Triple.call (fun _ _ => trivial) fun t r ht => ?_
      cases r with
      | error err => trivial
      | ok endpoints =>
        exact ⟨List.mem_cons_self, [], rfl, fun _ hmem => absurd hmem List.not_mem_nil,
          fun endpointId h =>
            absurd h (hquiet (c := .findEndpoints orgId eventType) ht nofun endpointId)⟩
    · refine (dispatchAll_triple m endpoints).bind fun _ => .pure fun t ht => ?_
      obtain ⟨hread, served, heq, hwrote, -⟩ := ht
      rw [List.append_nil] at heq
      exact ⟨endpoints, hread, heq ▸ hwrote⟩

theorem webhookDispatchHandler_triple (message : Message) (m : Option Message) :
    Handler.Triple (DispatchRule m) Untried (webhookDispatchHandler message)
      (fun _ => Served message) fun _ _ => True := by
  unfold webhookDispatchHandler
  split
  · rename_i eventType orgId htyped howned
    split
    · rename_i hempty
      refine .pure fun t _ orgId' eventType' h => ?_
      cases howned.symm.trans h.owned
      exact absurd hempty h.named
    · refine (dispatchWebhookEvent_triple m).bind fun _ => .pure fun t ht orgId' eventType' h => ?_
      cases howned.symm.trans h.owned
      cases htyped.symm.trans h.typed
      exact ht
  · rename_i hnot
    exact .pure fun t _ orgId eventType h => absurd h.owned (hnot eventType orgId h.typed)

theorem pump_triple (m : Option Message) : Handler.Triple (DispatchRule m) Untried (pump m)
    (fun _ _ => True) fun _ _ => True := by
  have hlast : ∀ {c : Cmd} {P : Transcript sig → Prop}, (∀ t, P t → DispatchRule m t c) →
      Handler.Triple (DispatchRule m) P (command c) (fun _ _ => True) fun _ _ => True :=
    fun h => Program.Triple.call h fun t r _ => by cases r <;> trivial
  cases m with
  | none =>
    exact (hlast (c := .term) fun _ _ => trivial).bind fun _ =>
      hlast (c := .onError _) fun _ _ => trivial
  | some message =>
    refine Handler.Triple.tryCatch (F := fun _ _ => True)
      ((webhookDispatchHandler_triple message (some message)).bind fun _ => hlast ?_) fun err =>
        (hlast (c := .nak) fun _ _ => trivial).bind fun _ =>
          hlast (c := .onError _) fun _ _ => trivial
    rintro t ht m hm
    cases hm
    exact ht

theorem obeys_dispatchRule :
    subscribers.Obeys (fun _ => DispatchRule) fun _ _ _ _ => True := by
  intro p message
  have huntried : Untried [] := by
    rintro endpointId ⟨orgId, eventId, r, hmem⟩
    cases hmem
  exact (pump_triple message [] huntried).mono (fun _ _ h => h) fun _ _ _ => trivial

end Triples

/-! ## Single commands -/

section Commands

variable {p : Pid} {c : sig.Cmd} {r : sig.Ans c} {i : Input} {s s' : Store}

/-- What a command can do to the rows. -/
theorem deliveries_of_exec (h : exec p c i s = some (r, s')) : s'.deleted = s.deleted ∧
    (s'.webhookDeliveries = s.webhookDeliveries ∨ ∃ orgId endpointId eventId id,
      c = .createDelivery orgId endpointId eventId ∧
        s'.webhookDeliveries = (p, ⟨id, orgId, endpointId, eventId⟩) :: s.webhookDeliveries) := by
  have hperform : ∀ r', s.perform p c i.id = some (r', s') → s'.deleted = s.deleted ∧
      (s'.webhookDeliveries = s.webhookDeliveries ∨ ∃ orgId endpointId eventId id,
        c = .createDelivery orgId endpointId eventId ∧
          s'.webhookDeliveries = (p, ⟨id, orgId, endpointId, eventId⟩) :: s.webhookDeliveries) := by
    intro r' hr
    cases c with
    | createDelivery orgId endpointId eventId =>
      simp only [Store.perform] at hr
      split at hr <;> cases hr
      · exact ⟨rfl, .inr ⟨orgId, endpointId, eventId, i.id, rfl, rfl⟩⟩
      · exact ⟨rfl, .inl rfl⟩
    | createEvent | findEndpoints | queueAdd | ack | nak | term | onError =>
      cases hr
      exact ⟨rfl, .inl rfl⟩
  unfold exec at h
  split at h
  · exact hperform r h
  · split at h
    · cases h
    · split at h
      · obtain ⟨⟨r', s''⟩, hr, heq⟩ := Option.map_eq_some_iff.mp h
        cases heq
        exact hperform r' hr
      · cases h
        exact ⟨rfl, .inl rfl⟩

/-- A command that is answered well has been performed. -/
theorem perform_of_exec {a : Res c} (h : exec p c i s = some (.ok a, s')) :
    s.perform p c i.id = some (.ok a, s') := by
  unfold exec at h
  split at h
  · exact h
  · split at h
    · cases h
    · split at h
      · obtain ⟨out, -, heq⟩ := Option.map_eq_some_iff.mp h
        cases heq
      · cases h

/-- The endpoints that a delivery is told of are those that are active and subscribed then. -/
theorem endpoints_of_exec {orgId : String} {eventType : WebhookEventType}
    {endpoints : List WebhookEndpoint}
    (h : exec p (.findEndpoints orgId eventType) i s = some (.ok endpoints, s')) :
    endpoints = s.subscribed orgId eventType := by
  cases perform_of_exec h
  rfl

theorem wrote_of_exec {orgId endpointId eventId id : String}
    (h : exec p (.createDelivery orgId endpointId eventId) i s = some (.ok id, s')) :
    s'.webhookDeliveries = (p, ⟨id, orgId, endpointId, eventId⟩) :: s.webhookDeliveries := by
  have hr := perform_of_exec h
  simp only [Store.perform] at hr
  split at hr <;> cases hr
  rfl

theorem subscribed_nodup (s : Store) (orgId : String) (eventType : WebhookEventType) :
    ((s.subscribed orgId eventType).map WebhookEndpoint.id).Nodup :=
  s.nodup.sublist (List.filter_sublist.map _)

theorem register_deliveries {endpoint : WebhookEndpoint} (h : s.register endpoint = some s') :
    s'.webhookDeliveries = s.webhookDeliveries ∧ s'.deleted = s.deleted := by
  unfold Store.register at h
  split at h
  · split at h <;> cases h
    exact ⟨rfl, rfl⟩
  · cases h

end Commands

/-! ## The invariant -/

section Tracked

variable {c d : SubConfig} {a : Action sig Pid Drift (Option Message)}

/-- Rows and history agree, and there are no two rows for one event and endpoint. -/
structure Tracked (c : SubConfig) : Prop where
  tried : ∀ p delivery, (p, delivery) ∈ c.world.shared.webhookDeliveries →
    Tried (transcript p c.world.history) delivery.webhookEndpointId
  kept : ∀ p endpointId, Wrote (transcript p c.world.history) endpointId →
    endpointId ∈ c.world.shared.deleted ∨ ∃ delivery,
      (p, delivery) ∈ c.world.shared.webhookDeliveries ∧ delivery.webhookEndpointId = endpointId
  told : ∀ p orgId eventType endpoints,
    (⟨.findEndpoints orgId eventType, .ok endpoints⟩ : Exchange sig) ∈
      transcript p c.world.history → (endpoints.map WebhookEndpoint.id).Nodup
  once : ∀ eventId endpointId, (rowsOf c eventId endpointId).length ≤ 1

abbrev SubConforms (c : SubConfig) : Prop :=
  System.Conforms (fun _ => DispatchRule) (fun _ _ _ _ => True) c

/-- Processes stay what they are. -/
theorem eventOf_command {p q : Pid} {P : Proc sig Pid (Option Message) (Except String Unit)}
    {prog : Program sig (Except String Unit)} {w : World sig Pid Store} (hp : c.procs p = some P) :
    eventOf ⟨w, Function.update c.procs p (some { P with prog := prog })⟩ q = eventOf c q := by
  unfold eventOf
  dsimp only
  by_cases hqp : q = p
  · subst hqp
    rw [Function.update_self, hp]
    rfl
  · rw [Function.update_of_ne hqp]

/-- A process that starts has written nothing yet. -/
theorem rowsOf_start (hconf : SubConforms c) (hi : Tracked c) {p : Pid}
    {P : Proc sig Pid (Option Message) (Except String Unit)} (hp : c.procs p = none)
    (eventId endpointId : String) :
    rowsOf ⟨c.world, Function.update c.procs p (some P)⟩ eventId endpointId =
      rowsOf c eventId endpointId := by
  refine List.filter_congr fun row hrow => decide_eq_decide.mpr ?_
  have hne : row.1 ≠ p := by
    rintro rfl
    obtain ⟨orgId, eventId, r, hmem⟩ := hi.tried row.1 row.2 hrow
    rw [hconf.fresh row.1 hp] at hmem
    cases hmem
  simp only [eventOf, Function.update_of_ne hne]

theorem rowsOf_of_deliveries {w : World sig Pid Store}
    (hrows : w.shared.webhookDeliveries = c.world.shared.webhookDeliveries)
    {procs : Pid → Option (Proc sig Pid (Option Message) (Except String Unit))}
    (hevent : ∀ q, eventOf (⟨w, procs⟩ : SubConfig) q = eventOf c q) (eventId endpointId : String) :
    rowsOf ⟨w, procs⟩ eventId endpointId = rowsOf c eventId endpointId := by
  unfold rowsOf
  simp only [hrows, hevent]

/-- A delivery that writes alone finds no row for its event and the endpoint. -/
theorem rowsOf_eq_nil (hi : Tracked c) {p : Pid} {message : Option Message}
    {orgId endpointId eventId : String}
    (hrule : DispatchRule message (transcript p c.world.history)
      (.createDelivery orgId endpointId eventId))
    (halone : ∀ row ∈ c.world.shared.webhookDeliveries, eventOf c row.1 = eventOf c p → row.1 = p)
    {busId : String} (hevent : eventOf c p = some busId) : rowsOf c busId endpointId = [] := by
  refine List.filter_eq_nil_iff.mpr fun row hrow hmatch => ?_
  obtain ⟨hbus, hendpoint⟩ := of_decide_eq_true hmatch
  obtain ⟨o, ty, endpoints, hread, hnot⟩ := hrule
  have hself := halone row hrow (hbus.trans hevent.symm)
  have htried := hi.tried row.1 row.2 hrow
  rw [hself, hendpoint] at htried
  exact hnot (hi.told p o ty endpoints hread) htried

theorem tracked_command (hi : Tracked c) {p : Pid} {i : Input}
    {P : Proc sig Pid (Option Message) (Except String Unit)} {cmd : Cmd}
    {k : sig.Ans cmd → Program sig (Except String Unit)} {r : sig.Ans cmd} {s : Store}
    (hp : c.procs p = some P) (hx : exec p cmd i c.world.shared = some (r, s))
    (hrule : DispatchRule P.op (transcript p c.world.history) cmd)
    (halone : WritesAlone c (.command ⟨p, cmd, r⟩)) :
    Tracked ⟨c.world.after ⟨p, cmd, r⟩ s,
      Function.update c.procs p (some { P with prog := k r })⟩ := by
  obtain ⟨hdeleted, hrows⟩ := deliveries_of_exec hx
  have hold : ∀ q e, e ∈ transcript q c.world.history →
      e ∈ transcript q (⟨p, cmd, r⟩ :: c.world.history) :=
    fun q _ hmem => (transcript_suffix (List.suffix_cons _ _)).mem hmem
  have hnew : ∀ q (cmd' : Cmd) (r' : sig.Ans cmd'),
      (⟨cmd', r'⟩ : Exchange sig) ∈ transcript q (⟨p, cmd, r⟩ :: c.world.history) →
        (⟨p, cmd, r⟩ : Event sig Pid) = ⟨q, cmd', r'⟩ ∨
          (⟨cmd', r'⟩ : Exchange sig) ∈ transcript q c.world.history := by
    intro q cmd' r' hmem
    rcases List.mem_cons.mp (mem_transcript.mp hmem) with heq | hmem
    · exact .inl heq.symm
    · exact .inr (mem_transcript.mpr hmem)
  have hgrown : ∀ row ∈ c.world.shared.webhookDeliveries, row ∈ s.webhookDeliveries := by
    intro row hrow
    rcases hrows with hsame | ⟨orgId, endpointId, eventId, id, -, hcons⟩
    · rwa [hsame]
    · rw [hcons]
      exact List.mem_cons_of_mem _ hrow
  refine ⟨fun q delivery hmem => ?_, fun q endpointId hwrote => ?_, fun q o ty endpoints hmem => ?_,
    fun eventId endpointId => ?_⟩
  · -- every row comes from an insert of its subscriber
    have hkept : (q, delivery) ∈ c.world.shared.webhookDeliveries →
        Tried (transcript q (⟨p, cmd, r⟩ :: c.world.history)) delivery.webhookEndpointId := by
      intro h
      obtain ⟨o, e, r', hmem⟩ := hi.tried q delivery h
      exact ⟨o, e, r', hold q _ hmem⟩
    rcases hrows with hsame | ⟨orgId, endpointId, eventId, id, rfl, hcons⟩
    · exact hkept (hsame ▸ hmem)
    · replace hmem : (q, delivery) ∈ s.webhookDeliveries := hmem
      rw [hcons] at hmem
      rcases List.mem_cons.mp hmem with heq | hmem
      · cases heq
        exact ⟨orgId, eventId, r, mem_transcript.mpr List.mem_cons_self⟩
      · exact hkept hmem
  · -- what has been inserted is there, unless the endpoint has been deleted
    obtain ⟨o, e, id, hmem⟩ := hwrote
    show endpointId ∈ s.deleted ∨ _
    rcases hnew q _ _ hmem with heq | hmem
    · cases heq
      refine .inr ⟨⟨id, o, endpointId, e⟩, ?_, rfl⟩
      show _ ∈ s.webhookDeliveries
      rw [wrote_of_exec hx]
      exact List.mem_cons_self
    · rw [hdeleted]
      exact (hi.kept q endpointId ⟨o, e, id, hmem⟩).imp_right
        fun ⟨delivery, hrow, hendpoint⟩ => ⟨delivery, hgrown _ hrow, hendpoint⟩
  · -- an endpoint is listed once
    rcases hnew q _ _ hmem with heq | hmem
    · cases heq
      rw [endpoints_of_exec hx]
      exact subscribed_nodup _ _ _
    · exact hi.told q o ty endpoints hmem
  · -- no endpoint has two rows of one event
    rcases hrows with hsame | ⟨orgId, written, rowEvent, id, rfl, hcons⟩
    · rw [rowsOf_of_deliveries hsame fun q => eventOf_command hp]
      exact hi.once eventId endpointId
    · unfold rowsOf
      simp only [World.after_shared, hcons, eventOf_command hp]
      by_cases hmatch : eventOf c p = some eventId ∧ written = endpointId
      · obtain ⟨hevent, rfl⟩ := hmatch
        have hnil := rowsOf_eq_nil hi hrule halone hevent
        rw [List.filter_cons_of_pos (by simpa using hevent)]
        show ((p, _) :: rowsOf c eventId written).length ≤ 1
        rw [hnil]
        exact le_refl _
      · rw [List.filter_cons_of_neg (by simpa using fun h => not_and.mp hmatch h)]
        exact hi.once eventId endpointId

theorem tracked_step (hconf : SubConforms c) (hi : Tracked c) (ha : WritesAlone c a)
    (hstep : subscribers.Steps c a d) : Tracked d := by
  cases hstep with
  | start hp =>
    exact ⟨hi.tried, hi.kept, hi.told, fun eventId endpointId =>
      (rowsOf_start hconf hi hp eventId endpointId).symm ▸ hi.once eventId endpointId⟩
  | command hp hk hx => exact tracked_command hi hp hx (hconf.allowed hp hk) ha
  | @drift e s hx =>
    cases e with
    | register endpoint =>
      obtain ⟨hrows, hdeleted⟩ := register_deliveries hx
      refine ⟨fun p delivery hmem => hi.tried p delivery (hrows ▸ hmem), fun p endpointId h => ?_,
        hi.told, fun eventId endpointId => ?_⟩
      · show endpointId ∈ s.deleted ∨ _
        rw [hdeleted, hrows]
        exact hi.kept p endpointId h
      · have hsame : rowsOf ⟨⟨s, c.world.history⟩, c.procs⟩ eventId endpointId =
            rowsOf c eventId endpointId :=
          @rowsOf_of_deliveries c ⟨s, c.world.history⟩ hrows c.procs (fun _ => rfl) _ _
        rw [hsame]
        exact hi.once eventId endpointId
    | delete endpointId =>
      cases hx
      refine ⟨fun p delivery hmem => hi.tried p delivery (List.mem_of_mem_filter hmem),
        fun p other h => ?_, hi.told, fun eventId other => ?_⟩
      · by_cases hsame : other = endpointId
        · exact .inl (hsame ▸ List.mem_cons_self)
        · rcases hi.kept p other h with hdeleted | ⟨delivery, hrow, rfl⟩
          · exact .inl (List.mem_cons_of_mem _ hdeleted)
          · exact .inr ⟨delivery, List.mem_filter.mpr ⟨hrow, decide_eq_true hsame⟩, rfl⟩
      · exact le_trans (List.Sublist.length_le (List.filter_sublist.filter _))
          (hi.once eventId other)

theorem tracked_init : Tracked (.init .empty) := by
  refine ⟨nofun, ?_, nofun, fun _ _ => Nat.zero_le 1⟩
  rintro p endpointId ⟨orgId, eventId, id, hmem⟩
  cases hmem

theorem Tracked.fansOut (hi : Tracked c) (hconf : SubConforms c) : FansOutOnce c := by
  refine ⟨hi.once, fun p P message orgId eventType r hp hop hdispatched hack => ?_⟩
  obtain ⟨P', hist, hp', hsuf, hrule⟩ := hconf.exists_of_mem hack
  obtain rfl := Option.some.inj (hp.symm.trans hp')
  obtain ⟨endpoints, hread, hall⟩ := hrule message hop orgId eventType hdispatched
  have hle : transcript p hist <:+ transcript p c.world.history :=
    transcript_suffix ((List.suffix_cons _ _).trans hsuf)
  refine ⟨endpoints, mem_transcript.mp (hle.mem hread), fun endpoint hmem => ?_⟩
  obtain ⟨o, e, id, hwrote⟩ := hall endpoint hmem
  exact hi.kept p endpoint.id ⟨o, e, id, hle.mem hwrote⟩

end Tracked

/-- If no two deliveries of an event write rows, there is one row for each event and endpoint, and
all of them are there after an acknowledgement. -/
theorem fansOutOnce_of_writesAlone (ls : List (Label Pid Input Drift (Option Message)))
    (c : SubConfig) (hrun : subscribers.run (.init .empty) ls = some c)
    (halone : subscribers.Along WritesAlone (.init .empty) ls) : FansOutOnce c := by
  have hconf : SubConforms c := System.conforms_run obeys_dispatchRule hrun
  exact Tracked.fansOut (System.invariant_run obeys_dispatchRule
    (fun _ _ _ hconf hi ha hstep => tracked_step hconf hi ha hstep) (System.conforms_init _)
    tracked_init hrun halone) hconf

/-! ### A second delivery -/

def endpoint : WebhookEndpoint :=
  ⟨"ep-1", "org-1", "https://hooks.example/x", "whsec_1", [.jobCompleted], true⟩

def completed : Message :=
  ⟨⟨"e-1", "job.completed", "1970-01-01T00:00:00.000Z", "\x7b\"orgId\":\"org-1\"\x7d"⟩,
    some "org-1"⟩

/-- The first delivery fails before it has written a row, and the second one is acknowledged. -/
def failedEarly : List (Label Pid Input Drift (Option Message)) :=
  [.drift (.register endpoint), .start 0 (some completed), .step 0 ⟨"ev-1", none⟩,
    .step 0 ⟨"", some ("timeout", false)⟩, .step 0 ⟨"", none⟩, .step 0 ⟨"", none⟩,
    .start 1 (some completed), .step 1 ⟨"ev-2", none⟩, .step 1 ⟨"", none⟩,
    .step 1 ⟨"d-1", none⟩, .step 1 ⟨"", none⟩, .step 1 ⟨"", none⟩]

theorem fansOutOnce_of_writesAlone_failedEarly :
    ∃ c, subscribers.run (.init .empty) failedEarly = some c ∧ FansOutOnce c ∧
      ∃ e ∈ c.world.history, e.pid = 1 ∧ e.cmd = .ack := by
  have hres : (subscribers.run (.init .empty) failedEarly).map (fun c => decide
      (∃ e ∈ c.world.history, e.pid = 1 ∧ e.cmd = .ack)) = some true := by decide
  obtain ⟨c, hrun, hc⟩ := Option.map_eq_some_iff.mp hres
  exact ⟨c, hrun, fansOutOnce_of_writesAlone failedEarly c hrun (by decide),
    of_decide_eq_true hc⟩

/-- The queue cannot be reached after the first delivery has written its row. -/
def failedLate : List (Label Pid Input Drift (Option Message)) :=
  [.drift (.register endpoint), .start 0 (some completed), .step 0 ⟨"ev-1", none⟩,
    .step 0 ⟨"", none⟩, .step 0 ⟨"d-1", none⟩, .step 0 ⟨"", some ("connection refused", false)⟩,
    .step 0 ⟨"", none⟩, .step 0 ⟨"", none⟩,
    .start 1 (some completed), .step 1 ⟨"ev-2", none⟩, .step 1 ⟨"", none⟩,
    .step 1 ⟨"d-2", none⟩, .step 1 ⟨"", none⟩, .step 1 ⟨"", none⟩]

theorem fansOutOnce_fails :
    ∃ c, subscribers.run (.init .empty) failedLate = some c ∧ ¬FansOutOnce c := by
  have hres : (subscribers.run (.init .empty) failedLate).map (fun c =>
      decide ((rowsOf c "e-1" "ep-1").length = 2)) = some true := by
    decide
  obtain ⟨c, hrun, hc⟩ := Option.map_eq_some_iff.mp hres
  refine ⟨c, hrun, fun h => ?_⟩
  have hone := h.once "e-1" "ep-1"
  rw [of_decide_eq_true hc] at hone
  omega

end CloudMesh.Webhooks.Dispatch
