import CloudMesh.Concurrent.Replay
import CloudMesh.Gateway.Billing

/-!
# Answers that are reused

A chat request can be answered from what an earlier one has left behind: an entry of the semantic
cache with the same hash, a stored result of the coalescing key, or the message on its channel. The
hash is of the model and the messages. What a provider would have been asked for is determined by
the exchanges of the request up to its routing, which are replayed to compare two requests.

## Main definitions

- `routed` — a request up to the point at which it is routed
- `builtRequest` — the provider request that a process has built
- `Reused` — a process has been given what another one has left behind
- `seenAlike_iff_of_reused` — what the two requests have in common
-/

namespace CloudMesh.Gateway

open Concurrent

/-! ## The request that is built -/

section Routed

variable (deps : Deps) (orgId : OrgId) (input : ChatInput)

/-- A request up to its routing, or the record that it replays. -/
def routed : Prog (IdempotentRecord ⊕ Routed) :=
  match input.idempotencyKey with
  | none => Sum.inr <$> routeRequest deps orgId input
  | some key => do
    let replay ← getIdempotentReplay orgId key
    match replay with
    | some record => pure (.inl record)
    | none => Sum.inr <$> routeRequest deps orgId input

/-- What follows the routing. -/
def answerRouted : IdempotentRecord ⊕ Routed → Prog Reply
  | .inl record =>
    pure ⟨record.statusCode, [("idempotent-replay", "true")], .response record.body⟩
  | .inr r =>
    if input.request.stream = some true then streamChat deps orgId input r
    else completeChat deps orgId input r

theorem answerRequest_eq : answerRequest deps orgId input =
    (Sum.inr <$> routeRequest deps orgId input) >>= answerRouted deps orgId input := by
  rw [map_eq_pure_bind, bind_assoc]
  simp only [pure_bind]
  rfl

theorem chat_eq : chat deps orgId input =
    routed deps orgId input >>= answerRouted deps orgId input := by
  unfold chat routed
  cases input.idempotencyKey with
  | none => exact answerRequest_eq deps orgId input
  | some key =>
    dsimp only
    rw [bind_assoc]
    refine bind_congr fun replay => ?_
    cases replay with
    | none => exact answerRequest_eq deps orgId input
    | some record => rfl

/-- The exchanges `t` route the request to `r`. -/
def RoutedTo (t : Transcript sig) (r : Routed) : Prop :=
  (routed deps orgId input).run.replay t.reverse = some (.ok (.inr r))

end Routed

/-- The input of a chat request. -/
def inputOf (c : GatewayConfig) (p : Pid) : Option ChatInput :=
  (c.procs p).bind fun P =>
    match P.op with
    | .chat input => some input
    | _ => none

/-- The request for the provider that a process has built. -/
def builtRequest (deps : Deps) (c : GatewayConfig) (p : Pid) : Option ChatRequest :=
  (inputOf c p).bind fun input =>
    match (routed deps p.orgId input).run.replay (transcript p c.world.history).reverse with
    | some (.ok (.inr r)) => some (providerReq input r)
    | _ => none

/-- Two requests that are the same for a provider. -/
structure SeenAlike (req req' : ChatRequest) : Prop where
  model : req.model = req'.model
  messages : req.messages = req'.messages
  maxTokens : req.maxTokens = req'.maxTokens
  temperature : req.temperature = req'.temperature

/-- Where a response can be left for other requests. -/
inductive Place
  | entry (orgId : OrgId) (model promptHash : String)
  | result (key : String)
  | message (channel : String)
  deriving DecidableEq

/-- The response that an event leaves behind. -/
def leftBehind : GatewayEvent → Option (Place × ChatResponse)
  | ⟨_, .insertCache id model promptHash _ response, _⟩ =>
    some (.entry id model promptHash, response)
  | ⟨_, .redisSet key (.response response) _, _⟩ => some (.result key, response)
  | ⟨_, .publish channel (some response), _⟩ => some (.message channel, response)
  | _ => none

/-- The response that an event finds. -/
def found : GatewayEvent → Option (Place × ChatResponse)
  | ⟨_, .findExact id model promptHash _, .ok (some response)⟩ =>
    some (.entry id model promptHash, response)
  | ⟨_, .redisGet key, .ok (some (.response response))⟩ => some (.result key, response)
  | ⟨_, .awaitMessage channel _, .ok (some (some response))⟩ => some (.message channel, response)
  | _ => none

/-- `q` has found a response that `p` has left behind. -/
def Reused (h : List GatewayEvent) (p q : Pid) : Prop :=
  ∃ e ∈ h, e.pid = p ∧ (leftBehind e).isSome = true ∧
    ∃ e' ∈ h, e'.pid = q ∧ found e' = leftBehind e

instance (h : List GatewayEvent) (p q : Pid) : Decidable (Reused h p q) :=
  inferInstanceAs (Decidable (∃ e ∈ h, _))

/-! ## Where results are kept and looked for -/

/-- The command neither keeps a result nor looks for one. -/
def Cmd.Unkeyed : Cmd → Prop
  | .findExact .. | .insertCache .. | .redisSet _ (.response _) _ | .publish ..
  | .awaitMessage .. => False
  | .redisGet key => ∀ name, key ≠ dedupKey name
  | _ => True

/-- Results are kept and looked for under the model and the hash of the prompt. -/
def Cmd.KeyedBy (deps : Deps) (orgId : OrgId) (input : ChatInput) (r : Routed) : Cmd → Prop
  | .findExact id model promptHash _ | .insertCache id model promptHash .. =>
    id = orgId ∧ model = r.resolved.providerModel ∧ promptHash = promptHashOf deps input r
  | .redisGet key | .redisSet key (.response _) _ =>
    key = dedupKey (dedupName orgId (promptHashOf deps input r))
  | .publish channel _ | .awaitMessage channel _ =>
    channel = resultChannel (dedupName orgId (promptHashOf deps input r))
  | _ => True

def ReuseRule (deps : Deps) (p : Pid) : Op → Transcript sig → Cmd → Prop
  | .chat input, t, c =>
    c.Unkeyed ∨ ∃ r, RoutedTo deps p.orgId input t r ∧ c.KeyedBy deps p.orgId input r
  | _, _, _ => True

section Unkeyed

variable {deps : Deps} {orgId : OrgId}

theorem unkeyed_of_routes {c : Cmd} (h : c.Routes orgId) : c.Unkeyed := by
  cases h with
  | getFlags => exact dedupKey_ne_flagsKey
  | checking h =>
    have hchecks := h.2
    cases c <;> trivial
  | routing h => cases c <;> trivial
  | setFlags | count | warn => trivial

/-- What is issued up to the routing. -/
theorem routed_every {P : Cmd → Prop} (hP : ∀ c : Cmd, c.Routes orgId → P c)
    (hreplay : ∀ key, P (.redisGet (idempotencyKey orgId key))) (input : ChatInput) :
    Handler.Every P (routed deps orgId input) := by
  unfold routed
  split
  · exact (routeRequest_every hP deps input).map _
  · refine (every_getAs (hreplay _)).bind fun replay => ?_
    cases replay with
    | some record => exact Handler.every_pure _
    | none => exact (routeRequest_every hP deps input).map _

theorem routed_unkeyed (input : ChatInput) :
    Handler.Every Cmd.Unkeyed (routed deps orgId input) :=
  routed_every (fun _ => unkeyed_of_routes) (fun _ name => dedupKey_ne_idempotencyKey _ name) input

end Unkeyed

section Keyed

variable {deps : Deps} {orgId : OrgId} {input : ChatInput} {r : Routed}

theorem keyedBy_of_isResilience {c : Cmd} (h : c.isResilience = true) :
    c.KeyedBy deps orgId input r := by
  cases c <;> trivial

theorem callProvider_keyed {α : Type} {fn : Prog α} (name : String)
    (hfn : Handler.Every (Cmd.KeyedBy deps orgId input r) fn) :
    Handler.Every (Cmd.KeyedBy deps orgId input r)
      (callProviderResilientWithStats deps.env name fn) :=
  callProviderResilientWithStats_every (fun _ => keyedBy_of_isResilience) hfn name

theorem keyedBy_of_coalesces {c : Cmd}
    (h : c.Coalesces (dedupName orgId (promptHashOf deps input r))) :
    c.KeyedBy deps orgId input r := by
  cases h with
  | look | store | announce | wait => rfl
  | claim | release | subscribe => trivial

theorem runChat_keyed :
    Handler.Every (Cmd.KeyedBy deps orgId input r) (runChat deps orgId input r) := by
  have hcall : Handler.Every (Cmd.KeyedBy deps orgId input r)
      (callProviderResilientWithStats deps.env r.resolved.provider.name
        (command (.chat r.resolved.provider (providerReq input r)))) :=
    callProvider_keyed _ (every_command trivial)
  unfold runChat
  dsimp only
  split
  · exact withRequestDedup_every (fun _ => keyedBy_of_coalesces) hcall
  · exact hcall

theorem answerChat_keyed :
    Handler.Every (Cmd.KeyedBy deps orgId input r) (answerChat deps orgId input r) := by
  unfold answerChat
  split
  · refine Handler.Every.bind ?_ fun cached => ?_
    · refine (every_command ⟨rfl, rfl, rfl⟩).bind fun exact => ?_
      cases exact with
      | some response => exact Handler.every_pure _
      | none =>
        refine (every_command trivial).bind fun embedding =>
          (every_command trivial).bind fun top => ?_
        cases top with
        | none => exact Handler.every_pure _
        | some top =>
          dsimp only
          split <;> exact Handler.every_pure _
    · have hrecord : ∀ outcome, Handler.Every (Cmd.KeyedBy deps orgId input r)
          (recordCacheOutcome orgId outcome) :=
        fun _ => (every_command trivial).bind fun _ => Handler.every_pure _
      cases cached with
      | hit response => exact (hrecord _).bind fun _ => Handler.every_pure _
      | miss embedding =>
        refine (hrecord _).bind fun _ => runChat_keyed.bind fun response => ?_
        have hstore : Handler.Every (Cmd.KeyedBy deps orgId input r)
            (storeCache orgId r.resolved.providerModel (promptHashOf deps input r) embedding
              response) := every_command ⟨rfl, rfl, rfl⟩
        exact (hstore.tryCatch fun _ => Handler.every_pure _).bind fun _ => Handler.every_pure _
  · exact runChat_keyed.bind fun _ => Handler.every_pure _

theorem storeReplay_keyed (response : ChatResponse) :
    Handler.Every (Cmd.KeyedBy deps orgId input r) (storeReplay deps orgId input response) := by
  unfold storeReplay
  split
  · exact Handler.every_pure _
  · exact every_command trivial

theorem completeChat_keyed :
    Handler.Every (Cmd.KeyedBy deps orgId input r) (completeChat deps orgId input r) := by
  refine (every_settle answerChat_keyed).bind fun answer => ?_
  rcases answer with err | ⟨response, fromCache⟩
  · dsimp only
    split
    · exact Handler.every_throw _
    · refine Handler.Every.bind (Handler.Every.tryCatch ?_ fun _ => Handler.every_pure _)
        fun _ => Handler.every_pure _
      refine (every_command trivial).bind fun claimed => ?_
      cases claimed with
      | false => exact Handler.every_pure _
      | true => exact (every_command trivial).bind fun _ => every_command trivial
  · refine Handler.Every.bind ?_ fun _ => (storeReplay_keyed response).bind
      fun _ => Handler.every_pure _
    cases fromCache with
    | true => exact Handler.every_pure _
    | false => exact Handler.Every.bind (every_command trivial) fun _ => Handler.every_pure _

theorem streamChat_keyed :
    Handler.Every (Cmd.KeyedBy deps orgId input r) (streamChat deps orgId input r) := by
  have hopen : Handler.Every (Cmd.KeyedBy deps orgId input r)
      (callProviderResilientWithStats deps.env r.resolved.provider.name
        (command (.streamOpen r.resolved.provider (providerReq input r)))) :=
    callProvider_keyed _ (every_command trivial)
  refine (every_settle hopen).bind fun first => ?_
  rcases first with err | _ | chunk
  · dsimp only
    split <;> first | exact Handler.every_throw _ | exact Handler.every_pure _
  · exact Handler.every_pure _
  · refine (every_command trivial).bind fun answer => ?_
    obtain ⟨rest, error⟩ := answer
    cases error with
    | some error => exact Handler.every_pure _
    | none =>
      exact Handler.Every.bind (every_command trivial) fun _ =>
        (storeReplay_keyed _).bind fun _ => Handler.every_pure _

end Keyed

theorem obeys_reuseRule (deps : Deps) :
    (gateway deps).Obeys (ReuseRule deps) fun _ _ _ _ => True := by
  intro p op
  have hother : (handler deps p.orgId op).run.Follows (fun _ _ => True) (fun _ _ => True) [] :=
    (Program.Triple.of_every (P := fun _ => True) (handler_confined p.orgId deps op)
      (fun _ _ _ _ => trivial) fun _ _ _ _ _ => trivial) [] trivial
  cases op with
  | chat input =>
    show (some <$> chat deps p.orgId input).run.Follows _ _ _
    rw [chat_eq, map_bind]
    have hrest : ∀ x, Handler.Every
        (fun cmd : Cmd => ∃ r, x = .inr r ∧ cmd.KeyedBy deps p.orgId input r)
        (some <$> answerRouted deps p.orgId input x) := by
      rintro (record | r)
      · exact Handler.every_pure _
      · refine Handler.Every.map _ (Handler.Every.mono (P := Cmd.KeyedBy deps p.orgId input r) ?_
          fun cmd hcmd => ⟨r, rfl, hcmd⟩)
        unfold answerRouted
        dsimp only
        split
        · exact streamChat_keyed
        · exact completeChat_keyed
    refine (Handler.follows_bind_replay (routed_unkeyed input) hrest).mono
      (fun t cmd h => h.imp_right ?_) fun _ _ _ => trivial
    rintro ⟨x, hreplay, r, rfl, hcmd⟩
    exact ⟨r, hreplay, hcmd⟩
  | cacheStats | deleteCache | abStats | createJob | listJobs | getJob | replayJob | processJob =>
    exact hother

/-! ## Two requests -/

section Two

variable {deps : Deps} {c : GatewayConfig} {p q : Pid} {input : ChatInput}

theorem exists_of_inputOf (h : inputOf c p = some input) :
    ∃ P, c.procs p = some P ∧ P.op = .chat input := by
  obtain ⟨P, hP, hop⟩ := Option.bind_eq_some_iff.mp h
  refine ⟨P, hP, ?_⟩
  split at hop
  · rename_i heq
    rw [heq, Option.some.inj hop]
  · cases hop

/-- A command that keeps a result or looks for one comes after the routing. -/
theorem keyedBy_of_mem (hconf : System.Conforms (ReuseRule deps) (fun _ _ _ _ => True) c)
    (hp : inputOf c p = some input) {cmd : Cmd} {r : sig.Ans cmd}
    (hmem : ⟨p, cmd, r⟩ ∈ c.world.history) (hcmd : ¬cmd.Unkeyed) :
    ∃ r, builtRequest deps c p = some (providerReq input r) ∧
      cmd.KeyedBy deps p.orgId input r := by
  obtain ⟨P, hist, hP, hsuf, hrule⟩ := hconf.exists_of_mem hmem
  obtain ⟨P', hP', hop⟩ := exists_of_inputOf hp
  obtain rfl := Option.some.inj (hP.symm.trans hP')
  rw [hop] at hrule
  obtain ⟨r, hrouted, hkeyed⟩ := hrule.resolve_left hcmd
  have hle : transcript p hist <:+ transcript p c.world.history :=
    transcript_suffix ((List.suffix_cons _ _).trans hsuf)
  refine ⟨r, ?_, hkeyed⟩
  rw [builtRequest, hp, Option.bind_some, Program.replay_of_suffix hrouted hle]

theorem promptHashOf_inj (hsha : Function.Injective deps.sha256) {input input' : ChatInput}
    {r r' : Routed} (h : promptHashOf deps input r = promptHashOf deps input' r') :
    r.resolved.providerModel = r'.resolved.providerModel ∧
      input.request.messages = input'.request.messages :=
  canonicalPrompt_inj (hsha h)

/-- The places of a request that is routed to `r`. -/
def Place.Of (deps : Deps) (orgId : OrgId) (input : ChatInput) (r : Routed) : Place → Prop
  | .entry id model promptHash =>
    id = orgId ∧ model = r.resolved.providerModel ∧ promptHash = promptHashOf deps input r
  | .result key => key = dedupKey (dedupName orgId (promptHashOf deps input r))
  | .message channel => channel = resultChannel (dedupName orgId (promptHashOf deps input r))

variable {place : Place} {response : ChatResponse} {r r' : Routed} {cmd : Cmd}

/-- What leaves a response behind, by the place. -/
theorem leftBehind_cases (deps : Deps) (input : ChatInput) {answer : sig.Ans cmd}
    (h : leftBehind ⟨p, cmd, answer⟩ = some (place, response)) : ¬cmd.Unkeyed ∧
      ∀ {orgId r}, cmd.KeyedBy deps orgId input r → place.Of deps orgId input r := by
  unfold leftBehind at h
  split at h
  on_goal 4 => cases h
  all_goals
    rename_i heq
    cases heq
    cases h
    exact ⟨id, id⟩

/-- What finds a response, by the place. -/
theorem found_cases (deps : Deps) (input : ChatInput) {answer : sig.Ans cmd}
    (h : found ⟨p, cmd, answer⟩ = some (place, response)) :
    (∀ {orgId r input'}, place.Of deps orgId input' r → ¬cmd.Unkeyed) ∧
      ∀ {orgId r}, cmd.KeyedBy deps orgId input r → place.Of deps orgId input r := by
  unfold found at h
  split at h
  on_goal 4 => cases h
  all_goals
    rename_i heq
    cases heq
    cases h
  · exact ⟨fun _ => id, id⟩
  · exact ⟨fun hplace hne => hne _ hplace, id⟩
  · exact ⟨fun _ => id, id⟩

/-- The hash can be told from the place. -/
theorem Place.Of.promptHashOf_eq {A B : OrgId} {input' : ChatInput}
    (h : place.Of deps A input r) (h' : place.Of deps B input' r') :
    promptHashOf deps input r = promptHashOf deps input' r' := by
  cases place with
  | entry id model promptHash => exact h.2.2.symm.trans h'.2.2
  | result key => exact (dedupName_inj (dedupKey_injective (h.symm.trans h'))).2
  | message channel => exact (dedupName_inj (resultChannel_injective (h.symm.trans h'))).2

/-- What is found has the hash under which it was left behind. -/
theorem promptHashOf_of_reused
    (hconf : System.Conforms (ReuseRule deps) (fun _ _ _ _ => True) c) {input' : ChatInput}
    (hp : inputOf c p = some input) (hq : inputOf c q = some input')
    (h : Reused c.world.history p q) :
    ∃ r r', builtRequest deps c p = some (providerReq input r) ∧
      builtRequest deps c q = some (providerReq input' r') ∧
      promptHashOf deps input r = promptHashOf deps input' r' := by
  obtain ⟨⟨p, cmd, answer⟩, hmem, rfl, hsome, ⟨q, cmd', answer'⟩, hmem', rfl, hfound⟩ := h
  obtain ⟨⟨place, response⟩, hleft⟩ := Option.isSome_iff_exists.mp hsome
  obtain ⟨hkeyless, hput⟩ := leftBehind_cases deps input hleft
  obtain ⟨r, hbuilt, hkeyed⟩ := keyedBy_of_mem hconf hp hmem hkeyless
  have hplace := hput hkeyed
  obtain ⟨hkeyless', hgot⟩ := found_cases deps input' (hfound.trans hleft)
  obtain ⟨r', hbuilt', hkeyed'⟩ := keyedBy_of_mem hconf hq hmem' (hkeyless' hplace)
  exact ⟨r, r', hbuilt, hbuilt', hplace.promptHashOf_eq (hgot hkeyed')⟩

end Two

/-- A request that is given what another one has left behind has built the same request for the
provider, except that the limit on the tokens and the temperature need not be the same. -/
theorem seenAlike_iff_of_reused (deps : Deps) (hsha : Function.Injective deps.sha256) (s : Store)
    (ls : List GatewayLabel) (c : GatewayConfig) (hrun : (gateway deps).run (.init s) ls = some c)
    (p q : Pid) (input input' : ChatInput) (hp : inputOf c p = some input)
    (hq : inputOf c q = some input') (h : Reused c.world.history p q) :
    ∃ req req', builtRequest deps c p = some req ∧ builtRequest deps c q = some req' ∧
      (SeenAlike req req' ↔ input.request.maxTokens = input'.request.maxTokens ∧
        input.request.temperature = input'.request.temperature) := by
  obtain ⟨r, r', hbuilt, hbuilt', hhash⟩ :=
    promptHashOf_of_reused (System.conforms_run (obeys_reuseRule deps) hrun) hp hq h
  obtain ⟨hmodel, hmessages⟩ := promptHashOf_inj hsha hhash
  refine ⟨_, _, hbuilt, hbuilt', fun hsame => ⟨hsame.maxTokens, hsame.temperature⟩, ?_⟩
  rintro ⟨hmax, htemp⟩
  exact ⟨hmodel, hmessages, hmax, htemp⟩

/-! ### The same prompt twice -/

theorem seenAlike_iff_of_reused_followed :
    ∃ c req req', (gateway greetingDeps).run (.init (.fresh coalescing fun _ => none)) followed =
        some c ∧ Reused c.world.history ⟨tenantA, 0⟩ ⟨tenantA, 1⟩ ∧
      builtRequest greetingDeps c ⟨tenantA, 0⟩ = some req ∧
      builtRequest greetingDeps c ⟨tenantA, 1⟩ = some req' ∧ SeenAlike req req' := by
  have hres : ((gateway greetingDeps).run (.init (.fresh coalescing fun _ => none)) followed).map
      (fun c => decide (inputOf c ⟨tenantA, 0⟩ = some (greeting "gpt-4o-mini" none) ∧
        inputOf c ⟨tenantA, 1⟩ = some (greeting "gpt-4o-mini" none) ∧
        Reused c.world.history ⟨tenantA, 0⟩ ⟨tenantA, 1⟩)) = some true := by
    decide
  obtain ⟨c, hrun, hc⟩ := Option.map_eq_some_iff.mp hres
  obtain ⟨hp, hq, hreused⟩ := of_decide_eq_true hc
  obtain ⟨req, req', hreq, hreq', hiff⟩ := seenAlike_iff_of_reused greetingDeps
    (Equiv.injective _) _ _ c hrun _ _ _ _ hp hq hreused
  exact ⟨c, req, req', hrun, hreused, hreq, hreq', hiff.mpr ⟨rfl, rfl⟩⟩

/-! ### The same prompt with another limit -/

/-- An org that caches its answers. -/
def caching : OrgId → Option OrgRow :=
  fun _ => some ⟨"free", none, { OrgFeatureFlags.defaults with semanticCache := true }⟩

/-- The greeting with a limit on the tokens of the answer. -/
def limited (maxTokens : Option ℕ) : ChatInput :=
  ⟨⟨"gpt-4o-mini", [⟨.user, "hello"⟩], none, maxTokens, none⟩, tenantA, none⟩

/-- An answer of one token is cached, and given to a request that has no limit. -/
def truncated : List GatewayLabel :=
  (.start ⟨tenantA, 0⟩ (.chat (limited (some 1))) : GatewayLabel) ::
    steps ⟨tenantA, 0⟩ ([Choice.nothing, .nothing, .nothing, .nothing, .vector [1], .index 0,
      .nothing] ++ calling (.ok (greeted "chatcmpl-1")) ++ [Choice.nothing, .nothing]) ++
  (.start ⟨tenantA, 1⟩ (.chat (limited none)) : GatewayLabel) ::
    steps ⟨tenantA, 1⟩ [.nothing, .nothing, .nothing]

theorem seenAlike_fails : Function.Injective greetingDeps.sha256 ∧
    ∃ c req req', (gateway greetingDeps).run (.init (.fresh caching fun _ => none)) truncated =
        some c ∧ Reused c.world.history ⟨tenantA, 0⟩ ⟨tenantA, 1⟩ ∧
      builtRequest greetingDeps c ⟨tenantA, 0⟩ = some req ∧
      builtRequest greetingDeps c ⟨tenantA, 1⟩ = some req' ∧ ¬SeenAlike req req' := by
  have hres : ((gateway greetingDeps).run (.init (.fresh caching fun _ => none)) truncated).map
      (fun c => decide (Reused c.world.history ⟨tenantA, 0⟩ ⟨tenantA, 1⟩ ∧
        builtRequest greetingDeps c ⟨tenantA, 0⟩ = some (limited (some 1)).request ∧
        builtRequest greetingDeps c ⟨tenantA, 1⟩ = some (limited none).request ∧
        (outcomeOf c ⟨tenantA, 1⟩).isSome = true)) = some true := by
    decide +kernel
  obtain ⟨c, hrun, hc⟩ := Option.map_eq_some_iff.mp hres
  obtain ⟨hreused, hreq, hreq', -⟩ := of_decide_eq_true hc
  exact ⟨Equiv.injective _, c, _, _, hrun, hreused, hreq, hreq', fun h => nomatch h.maxTokens⟩

end CloudMesh.Gateway
