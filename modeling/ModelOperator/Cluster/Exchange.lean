import ModelOperator.Cluster.Reply
import ModelOperator.Cluster.Request

/-!
# Exchanges with the cluster

    An exchange is a program that sends requests one after the other and decides by each
    delivery how it goes on.  It holds no state of the server: `run` plays it against any
    server, and two exchanges can be interleaved between their requests.

    * `Exchange.bind` puts exchanges one behind the other;
    * `Exchange.step` answers the request that an exchange waits for;
    * `Exchange.run_bind` says that running a sequence runs its parts in order. -/

namespace ModelOperator

/-- A program that sends requests and continues with what comes of them. -/
inductive Exchange (α : Type) where
  | done (value : α)
  | ask (request : ClusterRequest) (next : Delivery → Exchange α)

namespace Exchange

variable {α β σ : Type}

/-- One exchange and then another that depends on its value. -/
def bind : Exchange α → (α → Exchange β) → Exchange β
  | done value, f => f value
  | ask request next, f => ask request fun d => bind (next d) f

instance : Monad Exchange where
  pure := done
  bind := bind

/-- A server: it answers requests from a state that they change. -/
abbrev Server (σ : Type) := σ → ClusterRequest → Delivery × σ

/-- Answers the request that an exchange waits for. -/
def step (serve : Server σ) : Exchange α → σ → Exchange α × σ
  | done value, s => (done value, s)
  | ask request next, s =>
    let (d, after) := serve s request
    (next d, after)

/-- Plays an exchange against a server to its end. -/
def run (serve : Server σ) : Exchange α → σ → α × σ
  | done value, s => (value, s)
  | ask request next, s =>
    let (d, after) := serve s request
    run serve (next d) after

theorem run_bind (serve : Server σ) (x : Exchange α) (f : α → Exchange β) (s : σ) :
    run serve (bind x f) s = run serve (f (run serve x s).1) (run serve x s).2 := by
  induction x generalizing s with
  | done value => rfl
  | ask request next ih => exact ih _ _

/-- Sends a request, if there is one, and reads what comes of it. -/
def call (request : Except CallError ClusterRequest) (decoder : Decoder α) :
    Exchange (Except CallError α) :=
  match request with
  | .error e => done (.error e)
  | .ok r => ask r fun d => done (d.result decoder)

end Exchange

end ModelOperator
