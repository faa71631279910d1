import MemberAccess.Accessor.Request
/-!
# Accessor — the cache

Accessors are kept under their keys and never dropped. A request that finds
one of the right form gets that one; otherwise the body is compiled, and kept
if nothing stands under the key. Failures leave no trace.
-/

namespace MemberAccess

/-- **Accessors by key.** -/
structure Cache where
  entries : List (CacheKey × Accessor) := []
deriving DecidableEq, Inhabited

namespace Cache

variable (c : Cache)

def find? (k : CacheKey) : Option Accessor := c.entries.lookup k

def contains (k : CacheKey) : Bool := (c.find? k).isSome

def size : Nat := c.entries.length

def insert (k : CacheKey) (a : Accessor) : Cache := ⟨c.entries ++ [(k, a)]⟩

end Cache

/-- **A cache with the supply of identities for new bodies.** -/
structure Workshop where
  cache : Cache
  supply : Supply
deriving DecidableEq, Inhabited

namespace Workshop

variable (w : Workshop)

/-- Compiles a plan into an accessor with a body of its own. -/
def compile (p : Plan) : Except AccessorError (Accessor × Supply) := do
  let code ← p.code
  let (n, supply) := w.supply.take
  return ({ shape := p.shape, view := p.key.view, code := code, body := ⟨n⟩ }, supply)

/-- **The accessor for a plan**, from the cache or compiled. -/
def fetch (p : Plan) : Except AccessorError Accessor × Workshop :=
  let hit := w.cache.find? p.key
  match hit.filter (·.shape = p.shape) with
  | some a => (.ok a, w)
  | none =>
    match w.compile p with
    | .error e => (.error e, w)
    | .ok (a, supply) =>
      if hit.isSome then (.ok a, { w with supply := supply })
      else (.ok a, ⟨w.cache.insert p.key a, supply⟩)

/-- **Answers a request** made to a reflector that keeps its accessors here. -/
def request (r : Reflector) (q : Request) : Except AccessorError Accessor × Workshop :=
  match r.plan q with
  | .ok p => w.fetch p
  | .error e => (.error e, w)

end Workshop

end MemberAccess
