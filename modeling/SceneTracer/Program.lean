import SceneTracer.Error
import SceneTracer.Evaluation

namespace SceneTracer

/-!
# Programs and sessions

* `compile` — the expressions of a source text, or what is wrong with it.
* `Session` — bindings, stack and backend state, carried from one source text to the next.
* `Session.run` — runs one more source text.
* `Session.history` — the states that a program goes through.
-/

/-- The expressions of a source text, or the first error in it. -/
def compile (source : String) : Except Error (List Expr) :=
  match tokenize source with
  | .error e => .error (.lexical e)
  | .ok tokens =>
    match Expr.parse tokens with
    | .error e => .error (.nesting e)
    | .ok body => .ok body

/-- What is left by the source texts that have run. -/
structure Session (ω : Type) where
  environment : Environment
  machine : Machine ω

/-- How a source text or a program has run. -/
inductive Outcome (ω : Type)
  | finished (session : Session ω)
  /-- Stopped by an error. The bindings are those of before, the stack what the run left on it. -/
  | failed (error : Error) (session : Session ω)
  /-- The calls that may be nested were used up. -/
  | exhausted

namespace Session

variable {ω : Type}

/-- A session in which nothing has run. -/
def start (world : ω) : Session ω := ⟨.empty, ⟨[], world⟩⟩

/-- Runs a list of expressions. At most `calls` calls may be nested. -/
def runBody (backend : Option (Backend ω)) (calls : Nat) (s : Session ω) (body : List Expr) :
    Outcome ω :=
  match evaluate backend calls s.environment body s.machine with
  | .ok environment machine => .finished ⟨environment, machine⟩
  | .error (.fault f) machine => .failed (.run f) { s with machine }
  | .error .exhausted _ => .exhausted

/-- Runs a source text. If it does not compile, nothing of it runs. -/
def run (backend : Option (Backend ω)) (calls : Nat) (s : Session ω) (source : String) :
    Outcome ω :=
  match compile source with
  | .error e => .failed e s
  | .ok body => s.runBody backend calls body

/-- The outcomes of running the expressions of a program one by one, up to the first that fails. -/
def history (backend : Option (Backend ω)) (calls : Nat) (s : Session ω) :
    List Expr → List (Outcome ω)
  | [] => []
  | e :: es =>
    match s.runBody backend calls [e] with
    | .finished next => .finished next :: next.history backend calls es
    | other => [other]

end Session

end SceneTracer
