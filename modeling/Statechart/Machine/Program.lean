import Statechart.Handlers
import Statechart.Machine.Request

/-!
# Behaviors as programs

The body of a behavior is a program: it looks at the machine, keeps notes in the environment of the
behaviors, and makes requests of the machine that runs it. A request made by a body may run further
bodies, so the depth of requests within requests is bounded by fuel.
-/

namespace Statechart

open Json

/-- What a program sees. -/
structure View (σ κ : Type) where
  machine : Machine κ
  logs : LogStore
  env : σ

namespace View

variable {σ κ : Type}

/-- The machine's own records. -/
def records (v : View σ κ) : List HistoryRecord := v.logs.records v.machine.history

end View

inductive Program (σ κ α : Type) where
  | ret (a : α)
  | look (next : View σ κ → Program σ κ α)
  | write (env : σ) (next : Program σ κ α)
  /-- Makes a request and goes on with its outcome. -/
  | call (q : Request κ) (next : Except MachineError q.Answer → Program σ κ α)

namespace Program

variable {σ κ α β : Type}

def bind : Program σ κ α → (α → Program σ κ β) → Program σ κ β
  | .ret a, f => f a
  | .look next, f => .look fun v => (next v).bind f
  | .write env next, f => .write env (next.bind f)
  | .call q next, f => .call q fun o => (next o).bind f

instance : Monad (Program σ κ) where
  pure := .ret
  bind := bind

def view : Program σ κ (View σ κ) := .look .ret

/-- Changes the environment. -/
def note (f : σ → σ) : Program σ κ Unit := .look fun v => .write (f v.env) (.ret ())

/-- The outcome of a request. -/
def request (q : Request κ) : Program σ κ (Except MachineError q.Answer) := .call q .ret

/-- Runs a program on a world, given how requests are carried out. -/
def runWith (perform : (q : Request κ) → Engine σ κ q.Answer) : Program σ κ α → Engine σ κ α
  | .ret a => pure a
  | .look next => do
    let w ← get
    (next ⟨w.machine, w.logs, w.env⟩).runWith perform
  | .write env next => do
    modify ({ · with env })
    next.runWith perform
  | .call q next => do
    let outcome ← Engine.attempt (perform q)
    (next outcome).runWith perform

end Program

/-- The body of a behavior, of a handler or of a hook. -/
abbrev Routine (σ κ : Type) := Program σ κ (Except MachineError (Option Bool))

/-- What a run needs from outside: the handlers of its context, and the body that each key stands
for. A hook's body has no element. -/
structure Host (σ κ : Type) where
  handlers : σ → HandlerTable κ
  body : κ → Option (Element κ) → List Value → Routine σ κ

namespace Host

variable {σ κ : Type}

/-- Runs the body of a key. -/
def runBody (h : Host σ κ) (perform : (q : Request κ) → Engine σ κ q.Answer) (key : κ)
    (element : Option (Element κ)) (args : List Value) : Engine σ κ (Option Bool) := do
  Engine.ofExcept (← (h.body key element args).runWith perform)

def responder (h : Host σ κ) (perform : (q : Request κ) → Engine σ κ q.Answer) : Responder σ κ where
  respondsTo env name := (h.handlers env).respondsTo name
  call name element args := do
    match (h.handlers (← get).env).get? name with
    | some key => h.runBody perform key (some element) args
    | none => pure none
  callback key element args := h.runBody perform key (some element) args

/-- Carries out a request with the bodies of a host, at most `n` requests deep. -/
def perform (h : Host σ κ) : Nat → (q : Request κ) → Engine σ κ q.Answer
  | 0, _ => throw .exhausted
  | n + 1, q =>
    Engine.carryOut (h.responder (perform h n))
      (fun key => do let _ ← h.runBody (perform h n) key none []) n q

end Host
end Statechart
