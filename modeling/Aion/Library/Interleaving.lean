import Mathlib.Data.List.Induction
import Mathlib.Data.Nat.Notation
import Mathlib.Logic.Function.Basic
import Mathlib.Logic.Relation
import Mathlib.Tactic.Push

/-!
# Clients of a shared service

A program calls a service and goes on with the answer (`Prog`). Any number of clients
run programs against one service, a call at a time and in any order (`Step`); a client
has a state of its own, which a program takes when it begins and leaves when it is done.

`Service.Obeys` says what a program does whatever state it finds the service in: which
calls it makes, given what its calls have added so far, and what holds when it is done.
`obeys_of_reachable` carries that to every busy client of every state that is reached,
and `store_of_reachable` does the same for what every call keeps of the service's state.

`Service.Guards` is for programs that go by what they have seen: which calls one makes, when
the others change the state in between only as it relies on (`Run.guards`).

A `Run` is the list of the steps taken, each with the state before it. What a scheduler
executes is one (`run_of_exec`).
-/

namespace Interleaving

variable {σ ρ α β ε C : Type} {R : C → Type}

/-! ### Programs -/

/-- A program: done with a value, or a call and how to go on with its answer. -/
inductive Prog (C : Type) (R : C → Type) (α : Type) where
  /-- The program is done. -/
  | done (value : α)
  /-- The program makes a call. -/
  | call (request : C) (next : R request → Prog C R α)

/-- The second program goes on with the value of the first. -/
def Prog.bind : Prog C R α → (α → Prog C R β) → Prog C R β
  | .done value, f => f value
  | .call request next, f => .call request fun answer => (next answer).bind f

/-- Every call the program can come to, whatever the answers before it, is one it may make. -/
def Prog.Calls (may : C → Prop) : Prog C R α → Prop
  | .done _ => True
  | .call request next => may request ∧ ∀ answer, (next answer).Calls may

variable {program : Prog C R α} {f : α → Prog C R β} {log : List ε} {may' : C → Prop}

theorem Prog.Calls.bind {may : C → Prop} (h : program.Calls may)
    (hf : ∀ value, (f value).Calls may) : (program.bind f).Calls may := by
  induction program with
  | done value => exact hf value
  | call request next ih => exact ⟨h.1, fun answer => ih answer (h.2 answer)⟩

theorem Prog.Calls.mono {may : C → Prop} (h : program.Calls may)
    (himp : ∀ request, may request → may' request) : program.Calls may' := by
  induction program with
  | done value => trivial
  | call request next ih => exact ⟨himp request h.1, fun answer => ih answer (h.2 answer)⟩

/-- A service: its answer to a request with the state after it, and what an answer adds
to the log of the program that got it. -/
structure Service (σ C : Type) (R : C → Type) (ε : Type) where
  /-- The answer and the state after it. -/
  serve : σ → (request : C) → R request × σ
  /-- What the answer adds to the program's log. -/
  added : (request : C) → R request → List ε

/-- Every call the program makes is one it may make with the log it has, and the value
it is done with satisfies `post`, whatever states the service answers from. -/
def Service.Obeys (service : Service σ C R ε) (may : List ε → C → Prop) (post : List ε → α → Prop) :
    List ε → Prog C R α → Prop
  | log, .done value => post log value
  | log, .call request next =>
    may log request ∧ ∀ state,
      service.Obeys may post (log ++ service.added request (service.serve state request).1)
        (next (service.serve state request).1)

theorem Service.Obeys.bind {service : Service σ C R ε} {may : List ε → C → Prop}
    {mid : List ε → α → Prop} {post : List ε → β → Prop} (h : service.Obeys may mid log program)
    (hf : ∀ log value, mid log value → service.Obeys may post log (f value)) :
    service.Obeys may post log (program.bind f) := by
  induction program generalizing log with
  | done value => exact hf log value h
  | call request next ih =>
    obtain ⟨hmay, hnext⟩ := h
    refine ⟨hmay, ?_⟩
    intro state
    exact ih _ (hnext state)

theorem Service.Obeys.mono {service : Service σ C R ε} {may : List ε → C → Prop}
    {post post' : List ε → α → Prop} (h : service.Obeys may post log program)
    (himp : ∀ log value, post log value → post' log value) :
    service.Obeys may post' log program := by
  induction program generalizing log with
  | done value => exact himp log value h
  | call request next ih =>
    obtain ⟨hmay, hnext⟩ := h
    refine ⟨hmay, ?_⟩
    intro state
    exact ih _ (hnext state)

/-- A program that makes no other calls than it may, whatever its log, obeys. -/
theorem Service.obeys_of_calls {service : Service σ C R ε} {may : List ε → C → Prop}
    (h : program.Calls may') (himp : ∀ log request, may' request → may log request) (log : List ε) :
    service.Obeys may (fun _ _ => True) log program := by
  induction program generalizing log with
  | done value => trivial
  | call request next ih => exact ⟨himp log request h.1, fun state => ih _ (h.2 _) _⟩

/-- A program's log only grows. -/
theorem Service.Obeys.extends {service : Service σ C R ε} {may : List ε → C → Prop}
    {post : List ε → α → Prop} (h : service.Obeys may post log program) :
    service.Obeys may (fun log' value => post log' value ∧ log ⊆ log') log program := by
  -- What a longer start extends to is more than what a shorter one does.
  have hmono : ∀ (log log' : List ε) (program : Prog C R α), log ⊆ log' →
    service.Obeys may post log' program →
      service.Obeys may (fun log'' value => post log'' value ∧ log ⊆ log'') log' program := by
    intro log log' program hsub h
    induction program generalizing log' with
    | done value => exact ⟨h, hsub⟩
    | call request next ih =>
      obtain ⟨hmay, hnext⟩ := h
      refine ⟨hmay, fun state => ih _ _ ?_ (hnext state)⟩
      exact List.subset_append_of_subset_left _ hsub
  exact hmono log log program (List.Subset.refl log) h

/-- A program that obeys can be done, and its log only grows until then. -/
theorem Service.Obeys.exists_done {service : Service σ C R ε} {may : List ε → C → Prop}
    {post : List ε → α → Prop} (h : service.Obeys may post log program) (state : σ) :
    ∃ log' value, log ⊆ log' ∧ post log' value := by
  induction program generalizing log with
  | done value => exact ⟨log, value, List.Subset.refl log, h⟩
  | call request next ih =>
    obtain ⟨log', value, hlog, hpost⟩ := ih _ (h.2 state)
    exact ⟨log', value, List.Subset.trans (List.subset_append_left _ _) hlog, hpost⟩

/-- Runs a program alone. -/
def Service.run (service : Service σ C R ε) : Prog C R α → σ → α × σ
  | .done value, state => (value, state)
  | .call request next, state =>
    service.run (next (service.serve state request).1) (service.serve state request).2

theorem Service.run_bind (service : Service σ C R ε) (program : Prog C R α) (f : α → Prog C R β)
    (state : σ) :
    service.run (program.bind f) state =
      service.run (f (service.run program state).1) (service.run program state).2 := by
  induction program generalizing state with
  | done value => rfl
  | call request next ih => exact ih _ _

/-- The requests a program makes when it runs alone. -/
def Service.requests (service : Service σ C R ε) : Prog C R α → σ → List C
  | .done _, _ => []
  | .call request next, state =>
    request :: service.requests (next (service.serve state request).1)
      (service.serve state request).2

theorem Service.requests_bind (service : Service σ C R ε) (program : Prog C R α)
    (f : α → Prog C R β) (state : σ) :
    service.requests (program.bind f) state = service.requests program state ++
      service.requests (f (service.run program state).1) (service.run program state).2 := by
  induction program generalizing state with
  | done value => rfl
  | call request next ih => exact congrArg (request :: ·) (ih _ _)

/-! ### Rely and guarantee -/

/-- From the state it last saw, the program makes only calls that it guarantees, as long as
the others change the state in between only as it relies on; `post` holds of the value it is
done with and the state it then last saw. -/
def Service.Guards (service : Service σ C R ε) (rely : σ → σ → Prop) (guarantee : σ → C → Prop)
    (post : σ → α → Prop) : σ → Prog C R α → Prop
  | state, .done value => post state value
  | state, .call request next =>
    ∀ later, rely state later →
      guarantee later request ∧ service.Guards rely guarantee post (service.serve later request).2
        (next (service.serve later request).1)

section Guards

variable {service : Service σ C R ε} {rely : σ → σ → Prop} {guarantee : σ → C → Prop} {state : σ}

theorem Service.Guards.bind {mid : σ → α → Prop} {post : σ → β → Prop}
    (h : service.Guards rely guarantee mid state program)
    (hf : ∀ state value, mid state value → service.Guards rely guarantee post state (f value)) :
    service.Guards rely guarantee post state (program.bind f) := by
  induction program generalizing state with
  | done value => exact hf state value h
  | call request next ih =>
    intro later hlat
    obtain ⟨hcall, hnext⟩ := h later hlat
    exact ⟨hcall, ih _ hnext⟩

variable {post : σ → α → Prop}

theorem Service.Guards.mono {post' : σ → α → Prop}
    (h : service.Guards rely guarantee post state program)
    (himp : ∀ state value, post state value → post' state value) :
    service.Guards rely guarantee post' state program := by
  induction program generalizing state with
  | done value => exact himp state value h
  | call request next ih =>
    intro later hlat
    obtain ⟨hcall, hnext⟩ := h later hlat
    exact ⟨hcall, ih _ hnext⟩

/-- A program that guards goes on doing so when the others have changed the state. -/
theorem Service.Guards.later {state' : σ} (trans : ∀ {a b c}, rely a b → rely b c → rely a c)
    (stable : ∀ {a b value}, rely a b → post a value → post b value)
    (h : service.Guards rely guarantee post state program) (hlat : rely state state') :
    service.Guards rely guarantee post state' program := by
  cases program with
  | done value => exact stable hlat h
  | call request next => exact fun later hrely => h later (trans hlat hrely)

end Guards

/-! ### Clients -/

/-- A client: idle, or in the middle of a program, with the state it began from and the
log so far. -/
inductive Client (ρ α C : Type) (R : C → Type) (ε : Type) where
  /-- Between programs. -/
  | idle (state : ρ)
  /-- Within a program. -/
  | busy (start : ρ) (log : List ε) (rest : Prog C R (α × ρ))

/-- The service's state and the clients. -/
structure System (σ ρ α C : Type) (R : C → Type) (ε : Type) where
  /-- The service's state. -/
  store : σ
  /-- The clients that are there. -/
  clients : ℕ → Option (Client ρ α C R ε)

/-- What happens in a step. -/
inductive Label (ρ α C : Type) (R : C → Type) (ε : Type) where
  /-- A client appears. -/
  | opened (i : ℕ)
  /-- A client begins a program. -/
  | began (i : ℕ)
  /-- A client makes a call. -/
  | called (i : ℕ) (request : C) (answer : R request)
  /-- A client is done: the state it began from, its log, the value and its state now. -/
  | finished (i : ℕ) (start : ρ) (log : List ε) (value : α) (state : ρ)
  /-- A client goes, idle or not. -/
  | closed (i : ℕ)

/-- The system with client `i` replaced. -/
def System.setClient (s : System σ ρ α C R ε) (i : ℕ) (client : Option (Client ρ α C R ε)) :
    System σ ρ α C R ε :=
  { s with clients := Function.update s.clients i client }

/-- One step of one client; `programs` says which programs a client in a state may begin. -/
inductive Step (service : Service σ C R ε) (programs : ρ → Prog C R (α × ρ) → Prop) :
    System σ ρ α C R ε → Label ρ α C R ε → System σ ρ α C R ε → Prop where
  /-- A client appears in any state. -/
  | opened {s : System σ ρ α C R ε} {i : ℕ} {state : ρ} (free : s.clients i = none) :
    Step service programs s (.opened i) (s.setClient i (some (.idle state)))
  /-- An idle client begins a program. -/
  | began {s : System σ ρ α C R ε} {i : ℕ} {state : ρ} {program : Prog C R (α × ρ)}
    (client : s.clients i = some (.idle state)) (hprog : programs state program) :
    Step service programs s (.began i) (s.setClient i (some (.busy state [] program)))
  /-- A busy client makes its next call. -/
  | called {s : System σ ρ α C R ε} {i : ℕ} {start : ρ} {log : List ε} {request : C}
    {next : R request → Prog C R (α × ρ)} (client : s.clients i = some (.busy start log (.call request next))) :
    Step service programs s (.called i request (service.serve s.store request).1)
        ⟨(service.serve s.store request).2, Function.update s.clients i
          (some (.busy start (log ++ service.added request (service.serve s.store request).1)
            (next (service.serve s.store request).1)))⟩
  /-- A busy client is done. -/
  | finished {s : System σ ρ α C R ε} {i : ℕ} {start : ρ} {log : List ε} {value : α} {state : ρ}
    (client : s.clients i = some (.busy start log (.done (value, state)))) :
    Step service programs s (.finished i start log value state) (s.setClient i (some (.idle state)))
  /-- A client goes. -/
  | closed {s : System σ ρ α C R ε} {i : ℕ} :
    Step service programs s (.closed i) (s.setClient i none)

section Rules

variable {service : Service σ C R ε} {programs : ρ → Prog C R (α × ρ) → Prop}
  {s s' : System σ ρ α C R ε} {label : Label ρ α C R ε}

/-- Steps of any clients, one after another. -/
def Steps (service : Service σ C R ε) (programs : ρ → Prog C R (α × ρ) → Prop) :
    System σ ρ α C R ε → System σ ρ α C R ε → Prop :=
  Relation.ReflTransGen fun s s' => ∃ label, Step service programs s label s'

/-- The service's state changes by calls only. -/
theorem Step.store_cases (h : Step service programs s label s') :
    s'.store = s.store ∨ ∃ i request, label = .called i request (service.serve s.store request).1 ∧
      s'.store = (service.serve s.store request).2 := by
  cases h with
  | called client => exact .inr ⟨_, _, rfl, rfl⟩
  | opened _ => exact .inl rfl
  | began _ _ => exact .inl rfl
  | finished _ => exact .inl rfl
  | closed => exact .inl rfl

/-- **The store rule**: what every call keeps of the service's state holds in every
state that is reached. -/
theorem store_of_reachable (inv : σ → Prop)
    (keeps : ∀ state request, inv state → inv (service.serve state request).2)
    (reachable : Steps service programs s s') (hs : inv s.store) : inv s'.store := by
  induction reachable with
  | refl => exact hs
  | tail _ step ih =>
    obtain ⟨label, step⟩ := step
    rcases step.store_cases with hsame | ⟨i, request, -, hserv⟩
    · rw [hsame]
      exact ih
    · rw [hserv]
      exact keeps _ request ih

/-- Every busy client obeys its specification from where it is. -/
def AllObey (service : Service σ C R ε) (may : ρ → List ε → C → Prop)
    (post : ρ → List ε → α × ρ → Prop) (s : System σ ρ α C R ε) : Prop :=
  ∀ i start log rest, s.clients i = some (.busy start log rest) →
    service.Obeys (may start) (post start) log rest

variable {may : ρ → List ε → C → Prop} {post : ρ → List ε → α × ρ → Prop}

variable {later : List (System σ ρ α C R ε × Label ρ α C R ε)}
  {client : Option (Client ρ α C R ε)}

theorem AllObey.setClient {i : ℕ} {store : σ} (h : AllObey service may post s)
    (hcli : ∀ start log rest, client = some (.busy start log rest) →
        service.Obeys (may start) (post start) log rest) :
    AllObey service may post ⟨store, Function.update s.clients i client⟩ := by
  intro j start log rest hj
  change Function.update s.clients i client j = _ at hj
  by_cases hij : j = i
  · subst hij
    rw [Function.update_self] at hj
    exact hcli start log rest hj
  · rw [Function.update_of_ne hij] at hj
    exact h j start log rest hj

/-- **The program rule**: when every program that may be begun obeys its specification,
every busy client does in every state that is reached. -/
theorem obeys_of_reachable
    (obeys : ∀ start program, programs start program →
        service.Obeys (may start) (post start) [] program) (reachable : Steps service programs s s')
    (hs : AllObey service may post s) : AllObey service may post s' := by
  induction reachable with
  | refl => exact hs
  | tail _ step ih =>
    obtain ⟨label, step⟩ := step
    cases step with
    | opened _ => exact ih.setClient (by simp)
    | began _ hprog =>
      refine ih.setClient ?_
      rintro _ _ _ ⟨⟩
      exact obeys _ _ hprog
    | called client =>
      refine ih.setClient ?_
      rintro _ _ _ ⟨⟩
      exact (ih _ _ _ _ client).2 _
    | finished _ => exact ih.setClient (by simp)
    | closed => exact ih.setClient (by simp)

/-! ### Runs -/

section Events

variable {X κ : Type} (starts ends : X → κ → Prop)

/-- Something started, and did not end since. -/
def Since (events : List X) (k : κ) : Prop :=
  ∃ before first after, events = before ++ first :: after ∧ starts first k ∧ ∀ later ∈ after,
    ¬ ends later k

/-- Between two starts there is an end. -/
def Separated (events : List X) : Prop :=
  ∀ before first mid second after, events = before ++ first :: mid ++ second :: after →
    ∀ k, starts first k → starts second k → ∃ event ∈ mid, ends event k

variable {starts ends} {events : List X} {last : X} {k : κ}

theorem since_concat : Since starts ends (events ++ [last]) k ↔
    starts last k ∨ Since starts ends events k ∧ ¬ ends last k := by
  constructor
  · rintro ⟨before, first, after, hevs, hfst, hlat⟩
    rcases List.eq_nil_or_concat after with rfl | ⟨after, event, rfl⟩
    · obtain ⟨-, hlast⟩ := List.append_inj' hevs rfl
      obtain rfl := List.singleton_inj.mp hlast
      exact .inl hfst
    · rw [List.concat_eq_append, ← List.cons_append, ← List.append_assoc] at hevs
      obtain ⟨rfl, hlast⟩ := List.append_inj' hevs rfl
      obtain rfl := List.singleton_inj.mp hlast
      exact .inr ⟨⟨before, first, after, rfl, hfst, fun later hmem => hlat later (by simp [hmem])⟩,
        hlat last (by simp)⟩
  · rintro (hlast | ⟨⟨before, first, after, rfl, hfst, hlat⟩, hlast⟩)
    · exact ⟨events, last, [], rfl, hlast, by simp⟩
    · refine ⟨before, first, after ++ [last], by simp, hfst, fun later hmem => ?_⟩
      rcases List.mem_append.mp hmem with hmem | hmem
      · exact hlat later hmem
      · rwa [List.mem_singleton.mp hmem]

theorem not_since_nil : ¬ Since starts ends [] k := by
  rintro ⟨before, first, after, hevs, -⟩
  simp at hevs

/-- What neither starts nor ends anything changes nothing. -/
theorem since_append_of_quiet {quiet : List X}
    (hquiet : ∀ event ∈ quiet, ¬ starts event k ∧ ¬ ends event k) :
    Since starts ends (events ++ quiet) k ↔ Since starts ends events k := by
  induction quiet using List.reverseRecOn with
  | nil => rw [List.append_nil]
  | append_singleton quiet event ih =>
    obtain ⟨hstarts, hends⟩ := hquiet event (by simp)
    rw [← List.append_assoc, since_concat, ih fun event hev =>
      hquiet event (List.mem_append_left _ hev)]
    simp [hstarts, hends]

theorem Since.append {more : List X} (h : Since starts ends events k)
    (hmore : ∀ event ∈ more, ¬ ends event k) : Since starts ends (events ++ more) k := by
  obtain ⟨before, first, after, rfl, hfst, hlat⟩ := h
  refine ⟨before, first, after ++ more, by simp, hfst, fun later hmem => ?_⟩
  exact (List.mem_append.mp hmem).elim (hlat later) (hmore later)

theorem separated_nil : Separated starts ends ([] : List X) := by
  intro before first mid second after hevs
  simp at hevs

/-- **The separation rule**: starts stay separated when nothing starts that has started and
not ended since. -/
theorem Separated.concat (h : Separated starts ends events)
    (hlast : ∀ k, starts last k → ¬ Since starts ends events k) :
    Separated starts ends (events ++ [last]) := by
  intro before first mid second after hevs k hfst hsnd
  rcases List.eq_nil_or_concat after with rfl | ⟨after, event, rfl⟩
  · obtain ⟨rfl, heq⟩ := List.append_inj' hevs rfl
    obtain rfl := List.singleton_inj.mp heq
    by_contra hnone
    push Not at hnone
    exact hlast k hsnd ⟨before, first, mid, rfl, hfst, hnone⟩
  · rw [List.concat_eq_append, ← List.cons_append, ← List.append_assoc] at hevs
    obtain ⟨rfl, -⟩ := List.append_inj' hevs rfl
    exact h before first mid second after rfl k hfst hsnd

/-- What is separated stays so in what is seen of the events. -/
theorem Separated.map {Y : Type} {starts' ends' : Y → κ → Prop} (h : Separated starts ends events)
    (g : X → Y) (hstarts : ∀ x k, starts' (g x) k → starts x k)
    (hends : ∀ x k, ends x k → ends' (g x) k) : Separated starts' ends' (events.map g) := by
  intro before first mid second after hevs k hfst hsnd
  obtain ⟨left, later, rfl, hleft, hlat⟩ := List.map_eq_append_iff.mp hevs
  obtain ⟨second', after', rfl, rfl, -⟩ := List.map_eq_cons_iff.mp hlat
  obtain ⟨before', mid', rfl, -, hmid⟩ := List.map_eq_append_iff.mp hleft
  obtain ⟨first', mid'', rfl, rfl, rfl⟩ := List.map_eq_cons_iff.mp hmid
  obtain ⟨event, hev, hend⟩ := h before' first' mid'' second' after' (by simp) k (hstarts _ k hfst)
    (hstarts _ k hsnd)
  exact ⟨g event, List.mem_map_of_mem hev, hends event k hend⟩

end Events

/-- Steps of any clients in order, each with the state before it. -/
inductive Run (service : Service σ C R ε) (programs : ρ → Prog C R (α × ρ) → Prop)
    (s : System σ ρ α C R ε) :
    List (System σ ρ α C R ε × Label ρ α C R ε) → System σ ρ α C R ε → Prop where
  /-- No step. -/
  | nil : Run service programs s [] s
  /-- One step more. -/
  | snoc {steps : List (System σ ρ α C R ε × Label ρ α C R ε)} {mid final : System σ ρ α C R ε}
    {label : Label ρ α C R ε} (earlier : Run service programs s steps mid)
    (last : Step service programs mid label final) : Run service programs s (steps ++ [(mid, label)]) final

variable {steps : List (System σ ρ α C R ε × Label ρ α C R ε)} {final : System σ ρ α C R ε}

theorem Run.reachable (run : Run service programs s steps final) :
    Steps service programs s final := by
  induction run with
  | nil => exact .refl
  | snoc _ last ih => exact ih.tail ⟨_, last⟩

theorem Run.cons (first : Step service programs s label s')
    (run : Run service programs s' steps final) :
    Run service programs s ((s, label) :: steps) final := by
  induction run with
  | nil => exact .snoc .nil first
  | snoc _ last ih => exact .snoc ih last

theorem Run.append {mid : System σ ρ α C R ε}
    (run : Run service programs s steps mid) (more : Run service programs mid later final) :
    Run service programs s (steps ++ later) final := by
  induction more with
  | nil => simpa using run
  | snoc _ last ih =>
    rw [← List.append_assoc]
    exact .snoc ih last

theorem Run.concat_inv {last : System σ ρ α C R ε × Label ρ α C R ε}
    (run : Run service programs s (steps ++ [last]) final) :
    Run service programs s steps last.1 ∧ Step service programs last.1 last.2 final := by
  generalize hall : steps ++ [last] = all at run
  cases run with
  | nil => simp at hall
  | snoc earlier step =>
    obtain ⟨rfl, hlast⟩ := List.append_inj' hall rfl
    cases hlast
    exact ⟨earlier, step⟩

/-- A run goes through a state after every part of it. -/
theorem Run.split (run : Run service programs s (steps ++ later) final) :
    ∃ mid, Run service programs s steps mid ∧ Run service programs mid later final := by
  induction later using List.reverseRecOn generalizing final with
  | nil => exact ⟨final, by simpa using run, .nil⟩
  | append_singleton later last ih =>
    rw [← List.append_assoc] at run
    obtain ⟨hearl, hlast⟩ := run.concat_inv
    obtain ⟨mid, hfst, hsnd⟩ := ih hearl
    exact ⟨mid, hfst, .snoc hsnd hlast⟩

/-- A run comes to each of its steps in the state before it. -/
theorem Run.at_step {step : System σ ρ α C R ε × Label ρ α C R ε}
    (run : Run service programs s (steps ++ step :: later) final) :
    Run service programs s steps step.1 ∧ ∃ next, Step service programs step.1 step.2 next := by
  rw [List.append_cons] at run
  obtain ⟨next, hfst, -⟩ := run.split
  obtain ⟨hbef, hstep⟩ := hfst.concat_inv
  exact ⟨hbef, next, hstep⟩

/-- Every busy client guards from the state the service is in. -/
def AllGuard (service : Service σ C R ε) (rely : σ → σ → Prop) (guarantee : ρ → σ → C → Prop)
    (s : System σ ρ α C R ε) : Prop :=
  ∀ i start log rest, s.clients i = some (.busy start log rest) →
    service.Guards rely (guarantee start) (fun _ _ => True) s.store rest

section RelyGuarantee

variable {rely : σ → σ → Prop} {guarantee : ρ → σ → C → Prop}

theorem AllGuard.setClient {i : ℕ} {store : σ} (trans : ∀ {a b c}, rely a b → rely b c → rely a c)
    (h : AllGuard service rely guarantee s) (hstore : rely s.store store)
    (hcli : ∀ start log rest, client = some (.busy start log rest) →
        service.Guards rely (guarantee start) (fun _ _ => True) store rest) :
    AllGuard service rely guarantee ⟨store, Function.update s.clients i client⟩ := by
  intro j start log rest hj
  change Function.update s.clients i client j = _ at hj
  by_cases hij : j = i
  · subst hij
    rw [Function.update_self] at hj
    exact hcli start log rest hj
  · rw [Function.update_of_ne hij] at hj
    exact (h j start log rest hj).later trans (fun _ _ => trivial) hstore

/-- **The rely-guarantee rule**: when every program that may be begun guards, and what a
client guarantees is what the others rely on, the state changes as is relied on and every call
of a run was guaranteed. -/
theorem Run.guards (refl : ∀ a, rely a a) (trans : ∀ {a b c}, rely a b → rely b c → rely a c)
    (keeps : ∀ start state request, guarantee start state request →
        rely state (service.serve state request).2)
    (begins : ∀ state start program, rely s.store state → programs start program →
        service.Guards rely (guarantee start) (fun _ _ => True) state program)
    (idle : ∀ i start log rest, s.clients i ≠ some (.busy start log rest))
    (run : Run service programs s steps final) :
    rely s.store final.store ∧ AllGuard service rely guarantee final ∧
      ∀ step ∈ steps, ∀ i request answer start log rest, step.2 = .called i request answer →
        step.1.clients i = some (.busy start log rest) → guarantee start step.1.store request := by
  induction run with
  | nil =>
    exact ⟨refl _, fun i start log rest hbusy => absurd hbusy (idle i start log rest), by simp⟩
  | @snoc steps mid final label _ last ih =>
    obtain ⟨hrely, hguards, hcalls⟩ := ih
    -- The call of the last step is the next one of the program that its client is in.
    have hlast : ∀ i request answer start log rest, label = .called i request answer →
        mid.clients i = some (.busy start log rest) → guarantee start mid.store request := by
      intro i request answer start log rest hlabel hbusy
      cases last with
      | called client =>
        injection hlabel with hi hreq
        subst hi hreq
        have heq := client.symm.trans hbusy
        cases heq
        exact (hguards _ _ _ _ client mid.store (refl _)).1
      | _ => cases hlabel
    have hall : ∀ step ∈ steps ++ [(mid, label)], ∀ i request answer start log rest,
      step.2 = .called i request answer →
        step.1.clients i = some (.busy start log rest) → guarantee start step.1.store request := by
      intro step hmem
      rcases List.mem_append.mp hmem with hmem | hmem
      · exact hcalls step hmem
      · rw [List.mem_singleton.mp hmem]
        exact hlast
    cases last with
    | opened _ => exact ⟨hrely, hguards.setClient trans (refl _) (by simp), hall⟩
    | began _ hprog =>
      refine ⟨hrely, hguards.setClient trans (refl _) ?_, hall⟩
      rintro _ _ _ ⟨⟩
      exact begins _ _ _ hrely hprog
    | called client =>
      obtain ⟨hcall, hnext⟩ := hguards _ _ _ _ client mid.store (refl _)
      have hkept := keeps _ _ _ hcall
      refine ⟨trans hrely hkept, hguards.setClient trans hkept ?_, hall⟩
      rintro _ _ _ ⟨⟩
      exact hnext
    | finished _ => exact ⟨hrely, hguards.setClient trans (refl _) (by simp), hall⟩
    | closed => exact ⟨hrely, hguards.setClient trans (refl _) (by simp), hall⟩

end RelyGuarantee

/-- What a scheduler asks for: a client that appears, or the next step of one. -/
inductive Action (ρ : Type) where
  /-- A client appears. -/
  | opened (i : ℕ) (state : ρ)
  /-- A client takes its next step. -/
  | advance (i : ℕ)

/-- The step a scheduler asks for, if there is one. -/
def System.act (service : Service σ C R ε) (program : ρ → Prog C R (α × ρ))
    (s : System σ ρ α C R ε) : Action ρ → Option (Label ρ α C R ε × System σ ρ α C R ε)
  | .opened i state =>
    match s.clients i with
    | none => some (.opened i, s.setClient i (some (.idle state)))
    | some _ => none
  | .advance i =>
    match s.clients i with
    | none => none
    | some (.idle state) => some (.began i, s.setClient i (some (.busy state [] (program state))))
    | some (.busy start log (.call request next)) =>
      some (.called i request (service.serve s.store request).1,
        ⟨(service.serve s.store request).2, Function.update s.clients i
          (some (.busy start (log ++ service.added request (service.serve s.store request).1)
            (next (service.serve s.store request).1)))⟩)
    | some (.busy start log (.done (value, state))) =>
      some (.finished i start log value state, s.setClient i (some (.idle state)))

theorem System.step_of_act {program : ρ → Prog C R (α × ρ)}
    (hprog : ∀ state, programs state (program state)) {action : Action ρ}
    (h : s.act service program action = some (label, s')) : Step service programs s label s' := by
  cases action with
  | opened i state =>
    simp only [System.act] at h
    split at h
    · cases h
      exact .opened ‹_›
    · cases h
  | advance i =>
    simp only [System.act] at h
    split at h
    · cases h
    · cases h
      exact .began ‹_› (hprog _)
    · cases h
      exact .called ‹_›
    · cases h
      exact .finished ‹_›

/-- The steps a scheduler asks for, in order. -/
def System.exec (service : Service σ C R ε) (program : ρ → Prog C R (α × ρ))
    (s : System σ ρ α C R ε) :
    List (Action ρ) → Option (List (System σ ρ α C R ε × Label ρ α C R ε) × System σ ρ α C R ε)
  | [] => some ([], s)
  | action :: rest =>
    (s.act service program action).bind fun next =>
      (next.2.exec service program rest).map fun later => ((s, next.1) :: later.1, later.2)

variable {actions : List (Action ρ)}

/-- **The scheduler rule**: what a scheduler executes is a run. -/
theorem System.run_of_exec {program : ρ → Prog C R (α × ρ)}
    (hprog : ∀ state, programs state (program state))
    (h : s.exec service program actions = some (steps, final)) :
    Run service programs s steps final := by
  induction actions generalizing s steps with
  | nil =>
    cases h
    exact .nil
  | cons action rest ih =>
    obtain ⟨⟨label, next⟩, hnext, h⟩ := Option.bind_eq_some_iff.mp h
    obtain ⟨⟨later, final'⟩, hlat, h⟩ := Option.map_eq_some_iff.mp h
    cases h
    exact .cons (System.step_of_act hprog hnext) (ih hlat)

/-- No client appears beyond those a schedule opens. -/
theorem System.clients_of_exec {program : ρ → Prog C R (α × ρ)} {n : ℕ}
    (hopen : ∀ i state, Action.opened i state ∈ actions → i < n) (hs : ∀ j ≥ n, s.clients j = none)
    (h : s.exec service program actions = some (steps, final)) :
    ∀ step ∈ steps, ∀ j ≥ n, step.1.clients j = none := by
  induction actions generalizing s steps with
  | nil =>
    cases h
    simp
  | cons action rest ih =>
    obtain ⟨⟨label, next⟩, hnext, h⟩ := Option.bind_eq_some_iff.mp h
    obtain ⟨⟨later, final'⟩, hlat, h⟩ := Option.map_eq_some_iff.mp h
    cases h
    have hupdate : ∀ i client, i < n → ∀ j ≥ n, Function.update s.clients i client j = none := by
      intro i client hi j hj
      rw [Function.update_of_ne (by omega)]
      exact hs j hj
    have hnext' : ∀ j ≥ n, next.clients j = none := by
      cases action with
      | opened i state =>
        simp only [System.act] at hnext
        split at hnext
        · cases hnext
          exact hupdate i _ (hopen i state List.mem_cons_self)
        · cases hnext
      | advance i =>
        have hi : s.clients i ≠ none → i < n := by
          intro hne
          by_contra hi
          exact hne (hs i (by omega))
        simp only [System.act] at hnext
        split at hnext
        · cases hnext
        all_goals
          cases hnext
          exact hupdate i _ (hi (by simp [*]))
    refine List.forall_mem_cons.mpr ⟨hs, ih (fun i state hmem => ?_) hnext' hlat⟩
    exact hopen i state (List.mem_cons_of_mem _ hmem)

end Rules

end Interleaving
