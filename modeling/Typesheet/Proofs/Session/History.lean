import Typesheet.Session.Basic

/-!
Contract: what the steps of a session do to its clients and to its store.

Owns: the steps that are on the store, those that load a client and those that end one; what
one step does to the store and to a client; the same for a run of steps; and the theorem that
what a client loads does not depend on the steps before it or on the other clients.

The session falls into two halves.  A step on the store leaves the clients alone, and any other
step leaves alone all that a load reads.  So a load sees nothing of the past but the store, and
a client changes by its own loads only.
-/

set_option autoImplicit false

namespace Typesheet

namespace Session

namespace Step

/-- The step changes what loads read: the store or the answers prepared in front of it. -/
def isOnStore : Step → Bool
  | .script .. | .insert .. | .build .. | .remove _ | .failOn _ | .writeFile .. | .deleteFile _ =>
      true
  | .opening .. | .onClient .. | .resolve .. | .fetch _ | .countAsked => false

/-- The step prepares an answer in front of the store. -/
def isScript : Step → Bool
  | .script .. => true
  | _ => false

/-- The step loads the client of this name. -/
def loads (name : Text) : Step → Bool
  | .onClient client .load => client = name
  | _ => false

/-- After the step the client of this name is gone, or another one has its name. -/
def ends (name : Text) : Step → Bool
  | .opening client _ => client = name
  | .onClient client .intoSchema => client = name
  | _ => false

/-- What the step does to a memory store. -/
def change : Step → MemoryStore → MemoryStore
  | .insert uri definition => .insert uri definition
  | .build uri calls => .insert uri (calls.foldl BuildCall.apply {})
  | .remove uri => .remove uri
  | .failOn uri => .failOn uri
  | _ => id

theorem loads_eq_false_of_isOnStore {step : Step} (name : Text) (onStore : step.isOnStore = true) :
    step.loads name = false := by
  cases step <;> first | rfl | simp [isOnStore] at onStore

theorem change_eq_self_of_not_isOnStore {step : Step} (memory : MemoryStore)
    (offStore : step.isOnStore = false) : step.change memory = memory := by
  cases step <;> first | rfl | simp [isOnStore] at offStore

end Step

variable {session : Session} {step : Step} {steps : List Step} {name : Text} {client : Client}
  {memory : MemoryStore}

/-! ## One step -/

/-- A step on the store changes nothing but the store and the prepared answers: a step that
prepares no answer leaves those alone, and a memory store becomes what the step makes of it. -/
theorem step_of_isOnStore (session : Session) (onStore : step.isOnStore = true) :
    ∃ store scripts, (session.step step).2 = { session with store, scripts }
      ∧ (step.isScript = false → scripts = session.scripts)
      ∧ ∀ memory, session.store = .memory memory → store = .memory (step.change memory) := by
  cases step with
  | opening | onClient | resolve | fetch | countAsked => simp [Step.isOnStore] at onStore
  | script uri script =>
      refine ⟨session.store, session.scripts.set uri script, rfl, ?_, fun memory held => held⟩
      simp [Step.isScript]
  | insert | build | remove | failOn =>
      cases held : session.store with
      | memory memory =>
          simp only [Session.step, onMemory, held]
          refine ⟨_, session.scripts, rfl, fun _ => rfl, ?_⟩
          intro other same
          cases same
          rfl
      | directory tree =>
          simp only [Session.step, onMemory, held]
          exact ⟨session.store, session.scripts, rfl, fun _ => rfl, by simp [held]⟩
  | writeFile | deleteFile =>
      cases held : session.store with
      | memory memory =>
          simp only [Session.step, onDirectory, held]
          refine ⟨session.store, session.scripts, rfl, fun _ => rfl, ?_⟩
          intro other same
          rw [held, same]
          rfl
      | directory tree =>
          simp only [Session.step, onDirectory, held]
          exact ⟨_, session.scripts, rfl, fun _ => rfl, by simp⟩

/-- Any other step changes nothing that a load reads. -/
theorem step_of_not_isOnStore (session : Session) (offStore : step.isOnStore = false) :
    ∃ clients asked disk, (session.step step).2 = { session with clients, asked, disk } := by
  cases step with
  | script | insert | build | remove | failOn | writeFile | deleteFile =>
      simp [Step.isOnStore] at offStore
  | opening name uri => exact ⟨_, session.asked, session.disk, rfl⟩
  | countAsked => exact ⟨session.clients, [], session.disk, rfl⟩
  | resolve uri ancestors =>
      simp only [Session.step]
      split
      · exact ⟨session.clients, _, session.disk, rfl⟩
      · exact ⟨session.clients, session.asked, session.disk, rfl⟩
  | fetch uri =>
      simp only [Session.step]
      split
      · exact ⟨session.clients, session.asked, session.disk, rfl⟩
      · exact ⟨session.clients, session.asked, session.disk, rfl⟩
  | onClient name step =>
      simp only [Session.step]
      split
      case h_2 => exact ⟨session.clients, session.asked, session.disk, rfl⟩
      case h_1 client _ =>
        cases step with
        | load => exact ⟨_, _, session.disk, rfl⟩
        | state | render => exact ⟨session.clients, session.asked, session.disk, rfl⟩
        | intoSchema => exact ⟨_, session.asked, session.disk, rfl⟩
        | save target directory fileName options =>
            cases target with
            | record refuse => exact ⟨session.clients, session.asked, session.disk, rfl⟩
            | disk => exact ⟨session.clients, session.asked, _, rfl⟩

theorem step_load (held : session.clients.get? name = some client) :
    session.step (.onClient name .load)
      = (.schema (client.load session.loader).1.schema,
        { session with
          clients := session.clients.set name (client.load session.loader).1
          asked := session.asked ++ (client.load session.loader).2 }) := by
  simp only [Session.step, held]
  rfl

theorem get?_clients_onClient {other : Text} {step : ClientStep}
    (kept : (Step.onClient other step).ends name = false) :
    (session.step (.onClient other step)).2.clients.get? name
      = if (Step.onClient other step).loads name then
          (session.clients.get? name).map fun client => (client.load session.loader).1
        else session.clients.get? name := by
  cases held : session.clients.get? other with
  | none =>
      have idle : (session.step (.onClient other step)).2 = session := by
        simp only [Session.step, held]
      rw [idle]
      split
      case isFalse => rfl
      case isTrue loads =>
        have same : other = name := by
          cases step <;> simp [Step.loads] at loads
          exact loads
        subst same
        simp [held]
  | some client =>
      cases step with
      | load =>
          rw [step_load held]
          by_cases same : other = name
          · subst same
            simp [Step.loads, held, Table.get?_set_self]
          · simp [Step.loads, same, Table.get?_set_of_ne _ (Ne.symm same)]
      | intoSchema =>
          have distinct : name ≠ other := by simpa [Step.ends, eq_comm] using kept
          simp only [Session.step, held]
          exact Table.get?_remove_of_ne distinct _
      | state | render =>
          simp only [Session.step, held]
          rfl
      | save target directory fileName options =>
          simp only [Session.step, held]
          cases target <;> rfl

/-- A step that does not end a client loads it or leaves it as it is. -/
theorem get?_clients_step (kept : step.ends name = false) :
    (session.step step).2.clients.get? name
      = if step.loads name then
          (session.clients.get? name).map fun client => (client.load session.loader).1
        else session.clients.get? name := by
  cases onStore : step.isOnStore with
  | true =>
      obtain ⟨store, scripts, after, -, -⟩ := step_of_isOnStore session onStore
      simp [after, Step.loads_eq_false_of_isOnStore name onStore]
  | false =>
      cases step with
      | script | insert | build | remove | failOn | writeFile | deleteFile =>
          simp [Step.isOnStore] at onStore
      | countAsked => rfl
      | opening other uri =>
          have distinct : name ≠ other := by simpa [Step.ends, eq_comm] using kept
          exact Table.get?_set_of_ne _ distinct _
      | resolve uri ancestors =>
          simp only [Session.step, Step.loads]
          split <;> rfl
      | fetch uri =>
          simp only [Session.step, Step.loads]
          split <;> rfl
      | onClient other step => exact get?_clients_onClient kept

/-! ## Runs -/

theorem session_run_append (steps next : List Step) :
    (session.run (steps ++ next)).2 = ((session.run steps).2.run next).2 := by
  induction steps generalizing session with
  | nil => rfl
  | cons first rest inductionHypothesis => exact inductionHypothesis

/-- What the steps of a run preserve, the run preserves. -/
theorem run_induction (Holds : Session → Prop) (start : Holds session)
    (preserved : ∀ session, ∀ step ∈ steps, Holds session → Holds (session.step step).2) :
    Holds (session.run steps).2 := by
  induction steps generalizing session with
  | nil => exact start
  | cons first rest inductionHypothesis =>
      apply inductionHypothesis (preserved session first List.mem_cons_self start)
      intro session step member
      exact preserved session step (List.mem_cons_of_mem first member)

theorem settings_run :
    (session.run steps).2.scheme = session.scheme
      ∧ (session.run steps).2.maxDepth = session.maxDepth := by
  apply run_induction
    (fun later => later.scheme = session.scheme ∧ later.maxDepth = session.maxDepth)
  · exact ⟨rfl, rfl⟩
  · intro later step member same
    cases onStore : step.isOnStore with
    | true =>
        obtain ⟨store, scripts, after, -, -⟩ := step_of_isOnStore later onStore
        rw [after]
        exact same
    | false =>
        obtain ⟨clients, asked, disk, after⟩ := step_of_not_isOnStore later onStore
        rw [after]
        exact same

theorem loader_run (offStore : ∀ step ∈ steps, step.isOnStore = false) :
    (session.run steps).2.loader = session.loader := by
  apply run_induction (fun later => later.loader = session.loader) rfl
  intro later step member same
  obtain ⟨clients, asked, disk, after⟩ := step_of_not_isOnStore later (offStore step member)
  rw [after]
  exact same

theorem scripts_run (unscripted : ∀ step ∈ steps, step.isScript = false) :
    (session.run steps).2.scripts = session.scripts := by
  apply run_induction (fun later => later.scripts = session.scripts) rfl
  intro later step member same
  cases onStore : step.isOnStore with
  | true =>
      obtain ⟨store, scripts, after, prepared, -⟩ := step_of_isOnStore later onStore
      rw [after]
      exact (prepared (unscripted step member)).trans same
  | false =>
      obtain ⟨clients, asked, disk, after⟩ := step_of_not_isOnStore later onStore
      rw [after]
      exact same

theorem store_step (held : session.store = .memory memory) :
    (session.step step).2.store = .memory (step.change memory) := by
  cases onStore : step.isOnStore with
  | true =>
      obtain ⟨store, scripts, after, -, changed⟩ := step_of_isOnStore session onStore
      rw [after]
      exact changed memory held
  | false =>
      obtain ⟨clients, asked, disk, after⟩ :=
        step_of_not_isOnStore session onStore
      rw [after, Step.change_eq_self_of_not_isOnStore memory onStore]
      exact held

theorem store_run (held : session.store = .memory memory) :
    (session.run steps).2.store
      = .memory (steps.foldl (fun memory step => step.change memory) memory) := by
  induction steps generalizing session memory with
  | nil => exact held
  | cons first rest inductionHypothesis => exact inductionHypothesis (store_step held)

/-! ## The clients in a run -/

section Clients

variable (kept : ∀ step ∈ steps, step.ends name = false)

include kept

theorem get?_clients_run_of_not_loads (unloaded : ∀ step ∈ steps, step.loads name = false)
    (held : session.clients.get? name = some client) :
    (session.run steps).2.clients.get? name = some client := by
  apply run_induction (fun later => later.clients.get? name = some client) held
  intro later step member held
  rw [get?_clients_step (kept step member), unloaded step member]
  exact held

/-- A client whose name was no address stays as it is, however often it is loaded. -/
theorem get?_clients_run_of_refused (refused : client.namespaceUri = none)
    (held : session.clients.get? name = some client) :
    (session.run steps).2.clients.get? name = some client := by
  apply run_induction (fun later => later.clients.get? name = some client) held
  intro later step member held
  rw [get?_clients_step (kept step member), held]
  split
  case isTrue => simp [Client.load, refused]
  case isFalse => rfl

theorem exists_get?_clients_run {uri : Option NamespaceUri} {schema : Schema}
    (held : session.clients.get? name = some ⟨uri, schema⟩) :
    ∃ later, (session.run steps).2.clients.get? name = some ⟨uri, later⟩ := by
  apply run_induction
    (fun later => ∃ schema, later.clients.get? name = some ⟨uri, schema⟩) ⟨schema, held⟩
  intro later step member ⟨schema, held⟩
  rw [get?_clients_step (kept step member), held]
  split
  case isFalse => exact ⟨schema, rfl⟩
  case isTrue =>
    cases uri with
    | none => exact ⟨schema, rfl⟩
    | some uri => exact ⟨(later.loader.load [] uri).schema, rfl⟩

end Clients

/-! ## Opening and loading -/

theorem step_opening_of_ok {input : Text} {uri : NamespaceUri}
    (valid : session.scheme.readNamespace (Address.normalize input) = .ok uri) :
    (session.step (.opening name input)).2.clients.get? name
      = some ⟨some uri, { uri := uri.text }⟩ := by
  simp only [Session.step, Client.ofName, valid]
  exact Table.get?_set_self name _ _

theorem step_opening_of_error {input : Text} {error : AddressError}
    (invalid : session.scheme.readNamespace (Address.normalize input) = .error error) :
    (session.step (.opening name input)).2.clients.get? name
      = some ⟨none, {
          uri := Address.normalize input
          issues := [(Cause.invalidNamespace input error.message).issue] }⟩ := by
  simp only [Session.step, Client.ofName, invalid]
  exact Table.get?_set_self name _ _

/-- Loading a client whose name was no address changes nothing and asks for nothing. -/
theorem step_load_of_refused (refused : client.namespaceUri = none)
    (held : session.clients.get? name = some client) :
    session.step (.onClient name .load) = (.schema client.schema, session) := by
  have unloaded : client.load session.loader = (client, []) := by
    simp only [Client.load, refused]
  rw [step_load held, unloaded, Table.set_eq_self held, List.append_nil]

theorem step_load_of_uri {uri : NamespaceUri} {schema : Schema}
    (held : session.clients.get? name = some ⟨some uri, schema⟩) :
    (session.step (.onClient name .load)).1 = .schema (session.loader.load [] uri).schema
      ∧ (session.step (.onClient name .load)).2.clients.get? name
        = some ⟨some uri, (session.loader.load [] uri).schema⟩ := by
  rw [step_load held]
  exact ⟨rfl, Table.get?_set_self name _ _⟩

theorem loader_run_of_memory (held : session.store = .memory memory)
    (unscripted : session.scripts = []) (scriptless : ∀ step ∈ steps, step.isScript = false) :
    (session.run steps).2.loader = {
      scheme := session.scheme
      source := (steps.foldl (fun memory step => step.change memory) memory).source
      maxDepth := session.maxDepth } := by
  have scripts : (session.run steps).2.scripts = [] := (scripts_run scriptless).trans unscripted
  simp only [loader, store_run held, scripts, settings_run]
  rfl

/-- After a load a client holds what it loaded until it is loaded again. -/
theorem get?_clients_run_load {uri : NamespaceUri} {earlier : Schema}
    (kept : ∀ step ∈ steps, step.ends name = false)
    (held : session.clients.get? name = some ⟨some uri, earlier⟩) :
    ∃ later, (session.run (.onClient name .load :: steps)).2.clients.get? name
        = some ⟨some uri, later⟩
      ∧ ((∀ step ∈ steps, step.loads name = false) →
        later = (session.loader.load [] uri).schema) := by
  have loaded := (step_load_of_uri held).2
  obtain ⟨later, holds⟩ := exists_get?_clients_run kept loaded
  refine ⟨later, holds, ?_⟩
  intro unloaded
  have unchanged := get?_clients_run_of_not_loads kept unloaded loaded
  rw [holds] at unchanged
  cases unchanged
  rfl

/-- With no step on the store after a load, the next load of the namespace by any client replies
what the first one replied. -/
theorem step_load_run_load {uri : NamespaceUri} {other : Text} {held : Schema}
    (offStore : ∀ step ∈ steps, step.isOnStore = false)
    (holds : (session.run (.onClient name .load :: steps)).2.clients.get? other
      = some ⟨some uri, held⟩) :
    ((session.run (.onClient name .load :: steps)).2.step (.onClient other .load)).1
      = .schema (session.loader.load [] uri).schema := by
  have sameLoader : (session.run (.onClient name .load :: steps)).2.loader = session.loader := by
    apply loader_run
    intro step member
    cases member with
    | head => rfl
    | tail _ member => exact offStore step member
  rw [(step_load_of_uri holds).1, sameLoader]

/-- **What a client loads is a matter of the store alone**, whatever happened before and whatever
the other clients do.  A client is opened somewhere in a session, later it is loaded, and the
session goes on; no step between or after ends the client.

If its name is an address, then the load replies what the loader of the session makes of the
namespace at that time.  The client holds this schema until it is loaded again, and as long as
no step is on the store, every load of the namespace, by this client or another, replies the
same.  If its name is no address, then it keeps the one issue that says so, and loading it
leaves the whole session as it is, the list of what was asked for included.

The loader is determined by the settings of the session and by what its store has become: a
memory store is what its changes up to the load have made of it. -/
theorem schema_of_latest_load (session : Session) (before between after : List Step)
    (name input : Text) (kept : ∀ step ∈ between ++ after, step.ends name = false) :
    let opened := before ++ .opening name input :: between
    let atLoad := (session.run opened).2
    let final := (session.run (opened ++ .onClient name .load :: after)).2
    (∀ uri, session.scheme.readNamespace (Address.normalize input) = .ok uri →
      let schema := (atLoad.loader.load [] uri).schema
      (atLoad.step (.onClient name .load)).1 = .schema schema
        ∧ (∃ held, final.clients.get? name = some ⟨some uri, held⟩
          ∧ ((∀ step ∈ after, step.loads name = false) → held = schema))
        ∧ ((∀ step ∈ after, step.isOnStore = false) →
          ∀ other held, final.clients.get? other = some ⟨some uri, held⟩ →
            (final.step (.onClient other .load)).1 = .schema schema))
    ∧ (∀ error, session.scheme.readNamespace (Address.normalize input) = .error error →
      let refused : Schema := {
        uri := Address.normalize input
        issues := [(Cause.invalidNamespace input error.message).issue] }
      atLoad.step (.onClient name .load) = (.schema refused, atLoad)
        ∧ final.clients.get? name = some ⟨none, refused⟩)
    ∧ (∀ memory, session.store = .memory memory → session.scripts = [] →
      (∀ step ∈ opened, step.isScript = false) →
      atLoad.loader = {
        scheme := session.scheme
        source := (opened.foldl (fun memory step => step.change memory) memory).source
        maxDepth := session.maxDepth }) := by
  intro opened atLoad final
  have keptBetween : ∀ step ∈ between, step.ends name = false :=
    fun step member => kept step (List.mem_append_left after member)
  have keptAfter : ∀ step ∈ after, step.ends name = false :=
    fun step member => kept step (List.mem_append_right between member)
  have atLoad_eq : atLoad = (((session.run before).2.step (.opening name input)).2.run between).2 :=
    session_run_append before (.opening name input :: between)
  have final_eq : final = (atLoad.run (.onClient name .load :: after)).2 :=
    session_run_append opened (.onClient name .load :: after)
  have scheme : (session.run before).2.scheme = session.scheme := settings_run.1
  refine ⟨?valid, ?invalid, ?memory⟩
  case valid =>
    intro uri valid schema
    rw [← scheme] at valid
    obtain ⟨earlier, held⟩ := exists_get?_clients_run keptBetween (step_opening_of_ok valid)
    rw [← atLoad_eq] at held
    rw [final_eq]
    refine ⟨(step_load_of_uri held).1, get?_clients_run_load keptAfter held, ?_⟩
    intro offStore other earlier holds
    exact step_load_run_load offStore holds
  case invalid =>
    intro error invalid refused
    rw [← scheme] at invalid
    have held := get?_clients_run_of_refused keptBetween rfl (step_opening_of_error invalid)
    rw [← atLoad_eq] at held
    have idle := step_load_of_refused rfl held
    refine ⟨idle, ?_⟩
    rw [final_eq]
    show ((atLoad.step (.onClient name .load)).2.run after).2.clients.get? name = _
    rw [idle]
    exact get?_clients_run_of_refused keptAfter rfl held
  case memory =>
    intro memory held unscripted scriptless
    exact loader_run_of_memory held unscripted scriptless

/-- A ledger whose amounts refer to currencies, and a client that audits the currencies. -/
private def ledgerSteps : List Step :=
  [.insert "ns:currencies".toList (Definition.named "Currency".toList),
    .insert "ns:ledger".toList
      ((Definition.named []).withColumn "A".toList "amount".toList
        "number | ns:currencies".toList),
    .opening "audit".toList "currencies".toList]

private def ledgerUri : NamespaceUri :=
  ⟨"ns:ledger".toList, by decide⟩

/-- The currencies become unavailable before the ledger is loaded, and afterwards the ledger is
removed. -/
theorem schema_of_latest_load_ledger :
    let between := [Step.onClient "audit".toList .load, .failOn "ns:currencies".toList]
    let after := [Step.remove "ns:ledger".toList, .onClient "audit".toList .load]
    let opened := ledgerSteps ++ .opening "books".toList " ledger".toList :: between
    (∀ step ∈ between ++ after, step.ends "books".toList = false)
      ∧ ∃ held, (Session.run { store := .memory {} }
          (opened ++ .onClient "books".toList .load :: after)).2.clients.get? "books".toList
            = some ⟨some ledgerUri, held⟩
        ∧ held.columns.length = 1 ∧ held.issues.length = 1 := by
  intro between after opened
  have kept : ∀ step ∈ between ++ after, step.ends "books".toList = false := by decide
  have unloaded : ∀ step ∈ after, step.loads "books".toList = false := by decide
  obtain ⟨latest, -, -⟩ := schema_of_latest_load { store := .memory {} } ledgerSteps between after
    "books".toList " ledger".toList kept
  obtain ⟨-, ⟨held, holds, same⟩, -⟩ := latest ledgerUri rfl
  rw [same unloaded] at holds
  exact ⟨kept, _, holds, by decide +kernel⟩

end Session

end Typesheet
