import Stencil.Cache.Policy
import Stencil.Markup.Tree
import Stencil.Source.Reader

/-!
# Loading templates by name

A load tries the candidates of a name in order. For each it asks the cache, and if nothing is there
it reads the source: a text is compiled and stored, a missing source leads on to the next candidate,
and any other error ends the load. Failures are not stored.

A load moves by `Loader.step` through the states of `Load`; it may be interrupted where it awaits a
source. `Loader.run` takes it to its end.
-/

namespace Stencil

/-- How far a load has come. -/
inductive Load where
  /-- These candidates are left to try. -/
  | checking (keys : List String)
  /-- The cache had nothing for `key`, whose source is awaited. -/
  | awaiting (key : String) (later : List String)
  | done (result : Except Error Template)

/-- What an observer sees of a load. -/
inductive LoadEvent where
  /-- The cache was asked whether it has a key. -/
  | asked (key : String) (present : Bool)
  /-- The cache was asked for the template of a key. -/
  | taken (key : String) (found : Bool)
  /-- The source of a key was read. -/
  | opened (key : String)
  | stored (key : String) (t : Template)

/-- The cache, and the events so far, newest first. -/
structure LoadState (κ : Type) where
  cache : κ
  history : List LoadEvent

/-- A load of `name`: how it reads sources, and with which tags it compiles them. -/
structure Loader where
  name : String
  read : String → Except Error String
  tags : TagTable

namespace Load

/-- Steps that are left at most. -/
def stepsLeft : Load → Nat
  | .checking keys => 2 * keys.length + 1
  | .awaiting _ later => 2 * later.length + 2
  | .done _ => 0

end Load

/-- Compiles the source of a key; the template and a fault in it are named by the key. -/
def Template.compile (tags : TagTable) (key source : String) : Except Error Template :=
  match Template.parse tags source with
  | .ok t => .ok { t with name := some key }
  | .error e => .error (e.inFile key)

namespace Loader

variable {κ : Type} [KeyedCache κ Template] (l : Loader)

/-- The template that the cache gives for a key that it claims to have. -/
def cached (key : String) (s : LoadState κ) : Option Template × LoadState κ :=
  match KeyedCache.has s.cache key with
  | (false, cache) => (none, ⟨cache, .asked key false :: s.history⟩)
  | (true, cache) =>
    let (t, cache) := KeyedCache.read cache key
    (t, ⟨cache, .taken key t.isSome :: .asked key true :: s.history⟩)

/-- Compiles the text of a key and stores the template. -/
def store (key source : String) (s : LoadState κ) : Load × LoadState κ :=
  match Template.compile l.tags key source with
  | .ok t => (.done (.ok t), ⟨KeyedCache.write s.cache key t, .stored key t :: s.history⟩)
  | .error e => (.done (.error e), s)

/-- Goes on with the source of a key. -/
def arrive (key : String) (later : List String) (s : LoadState κ) : Load × LoadState κ :=
  let s := { s with history := .opened key :: s.history }
  match l.read key with
  | .ok source => l.store key source s
  | .error (.sourceNotFound _) => (.checking later, s)
  | .error e => (.done (.error e), s)

def step : Load → LoadState κ → Load × LoadState κ
  | .checking [], s => (.done (.error (.sourceNotFound l.name)), s)
  | .checking (key :: later), s =>
    match cached key s with
    | (some t, s) => (.done (.ok t), s)
    | (none, s) => (.awaiting key later, s)
  | .awaiting key later, s => l.arrive key later s
  | .done result, s => (.done result, s)

/-- Takes `n` steps. -/
def steps : Nat → Load → LoadState κ → Load × LoadState κ
  | 0, load, s => (load, s)
  | n + 1, load, s =>
    let (load, s) := l.step load s
    steps n load s

/-- Every step takes a load nearer to its end. -/
theorem stepsLeft_step (load : Load) (s : LoadState κ) :
    (l.step load s).1.stepsLeft ≤ load.stepsLeft - 1 := by
  unfold step
  split
  · simp [Load.stepsLeft]
  · split <;> simp only [Load.stepsLeft, List.length_cons] <;> omega
  · simp only [arrive, store]
    repeat' split
    all_goals simp [Load.stepsLeft]
  · simp [Load.stepsLeft]

theorem stepsLeft_steps (n : Nat) (load : Load) (s : LoadState κ) :
    (l.steps n load s).1.stepsLeft ≤ load.stepsLeft - n := by
  induction n generalizing load s with
  | zero => simp [steps]
  | succ n ih =>
    have h1 := l.stepsLeft_step load s
    have h2 := ih (l.step load s).1 (l.step load s).2
    simp only [steps]
    omega

/-- After as many steps as are left, the load has its result. -/
theorem exists_steps_eq_done (load : Load) (s : LoadState κ) :
    ∃ result, (l.steps load.stepsLeft load s).1 = .done result := by
  have h := l.stepsLeft_steps load.stepsLeft load s
  generalize (l.steps load.stepsLeft load s).1 = final at h
  cases final with
  | done result => exact ⟨result, rfl⟩
  | checking keys => simp [Load.stepsLeft] at h
  | awaiting key later => simp [Load.stepsLeft] at h

/-- The result of a load from its candidates on, and the state that it leaves. -/
def run (keys : List String) (s : LoadState κ) : Except Error Template × LoadState κ :=
  let start := Load.checking keys
  match l.steps start.stepsLeft start s with
  | (.done result, s) => (result, s)
  | (_, s) => (.error (.sourceNotFound l.name), s)

end Loader

end Stencil
