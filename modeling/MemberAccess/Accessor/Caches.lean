import MemberAccess.Accessor.Cache
/-!
# Accessor — shared and private caches

A reflector keeps its accessors either in the cache that all share or in a
private one, which several reflectors may have in common. `Caches` holds all
of them.
-/

namespace MemberAccess

/-- **Where a reflector keeps its accessors.** -/
inductive CacheMode where
  /-- In the cache that all reflectors share by default. -/
  | common
  /-- In one of the private caches. -/
  | own (index : Nat)
deriving DecidableEq, Inhabited, Repr

/-- **All caches.** -/
structure Caches where
  common : Cache := {}
  own : List Cache := []
deriving DecidableEq, Inhabited

namespace Caches

variable (cs : Caches)

/-- A fresh private cache. -/
def add : CacheMode × Caches := (.own cs.own.length, { cs with own := cs.own ++ [{}] })

def get : CacheMode → Cache
  | .common => cs.common
  | .own i => cs.own.getD i {}

def set (c : Cache) : CacheMode → Caches
  | .common => { cs with common := c }
  | .own i => { cs with own := cs.own.set i c }

/-- **Answers a request** made to a reflector that keeps its accessors in one
of the caches. -/
def request (mode : CacheMode) (r : Reflector) (q : Request) (ids : Supply) :
    Except AccessorError Accessor × Caches × Supply :=
  let (answer, w) := Workshop.request ⟨cs.get mode, ids⟩ r q
  (answer, cs.set w.cache mode, w.supply)

end Caches

end MemberAccess
