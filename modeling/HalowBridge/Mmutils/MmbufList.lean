import HalowBridge.Lib.Chain
import HalowBridge.Lib.Machine

/-!
# Lists of packet buffers

An `mmbuf_list` has a head, a tail and a length, and the buffers in it link to each other through a
field of their own. An address is a number of 32 bits and zero is `NULL`; what the memory says about
the links is a function, and a load or store at `NULL` ends the program. A loop that follows links
may take as many steps as there are addresses: a walk that takes more comes back to where it was.
-/

namespace HalowBridge.Mmutils.Linked

/-- `NULL` -/
abbrev null : UInt32 := 0

/-- As many steps as there are addresses. -/
def addresses : ℕ := 4294967296

/-- `struct mmbuf_list` -/
structure MmbufList where
  head : UInt32
  tail : UInt32
  len : UInt32

/-- The list, and the `next` of the buffer at each address. -/
structure Store where
  list : MmbufList
  next : UInt32 → UInt32

namespace Store

variable (s : Store)

/-- `mmbuf->next` -/
def loadNext (mmbuf : UInt32) : Option UInt32 := if mmbuf = null then none else some (s.next mmbuf)

/-- `mmbuf->next = link` -/
def storeNext (mmbuf link : UInt32) : Option Store :=
  if mmbuf = null then none else some { s with next := Function.update s.next mmbuf link }

/-- `mmbuf_list_prepend` -/
def prepend (mmbuf : UInt32) : Option Store := do
  let s ← s.storeNext mmbuf s.list.head
  let tail := if s.list.tail = null then mmbuf else s.list.tail
  return { s with list := ⟨mmbuf, tail, s.list.len + 1⟩ }

/-- `mmbuf_list_append` -/
def append (mmbuf : UInt32) : Option Store := do
  let s ← s.storeNext mmbuf null
  if s.list.head = null then
    return { s with list := ⟨mmbuf, mmbuf, s.list.len + 1⟩ }
  else
    let s ← s.storeNext s.list.tail mmbuf
    return { s with list := ⟨s.list.head, mmbuf, s.list.len + 1⟩ }

/-- The loop of `mmbuf_find_prev`. -/
def findPrevLoop (mmbuf : UInt32) : ℕ → UInt32 → UInt32 → Option UInt32
  | 0, _, _ => none
  | fuel + 1, walk, next =>
      if next = null then some null
      else if next = mmbuf then some walk
      else findPrevLoop mmbuf fuel next (s.next next)

/-- `mmbuf_find_prev` -/
def findPrev (mmbuf : UInt32) : Option UInt32 := do
  let next ← s.loadNext s.list.head
  s.findPrevLoop mmbuf addresses s.list.head next

/-- The end of `mmbuf_list_remove`, with the links around the buffer already changed. -/
def unlinked (mmbuf prev : UInt32) : Option Store := do
  let tail := if s.list.tail = mmbuf then prev else s.list.tail
  { s with list := ⟨s.list.head, tail, s.list.len - 1⟩ }.storeNext mmbuf null

/-- `mmbuf_list_remove` -/
def remove (mmbuf : UInt32) : Option (Store × Bool) :=
  if s.list.head = null then some (s, false)
  else if s.list.head = mmbuf then do
    let next ← s.loadNext mmbuf
    let s ← { s with list := { s.list with head := next } }.unlinked mmbuf null
    return (s, true)
  else do
    let prev ← s.findPrev mmbuf
    if prev = null then
      return (s, false)
    else
      let next ← s.loadNext mmbuf
      let s ← s.storeNext prev next
      let s ← s.unlinked mmbuf prev
      return (s, true)

/-- `mmbuf_list_dequeue` -/
def dequeue : Option (Store × UInt32) :=
  if s.list.head = null then some (s, null)
  else do
    let mmbuf := s.list.head
    let next ← s.loadNext mmbuf
    let tail := if s.list.tail = mmbuf then null else s.list.tail
    let s := { s with list := ⟨next, tail, s.list.len - 1⟩ }
    let s ← s.storeNext mmbuf null
    return (s, mmbuf)

/-- `mmbuf_list_dequeue_tail` -/
def dequeueTail : Option (Store × UInt32) :=
  if s.list.tail = null then some (s, null)
  else do
    let mmbuf := s.list.tail
    let (s, _) ← s.remove mmbuf
    return (s, mmbuf)

/-- `mmbuf_list_dequeue_all` -/
def dequeueAll : Store × UInt32 := ({ s with list := ⟨null, null, 0⟩ }, s.list.head)

/-- `mmbuf_release`: whoever owns the memory now may write anything to it. -/
def release (mmbuf left : UInt32) : Store :=
  { s with next := Function.update s.next mmbuf left }

/-- `walk ? walk->next : NULL` -/
def loadNextOrNull (walk : UInt32) : Option UInt32 :=
  if walk = null then some null else s.loadNext walk

/-- The loop of `mmbuf_list_clear`, with the buffers it has released. -/
def clearLoop (left : UInt32 → UInt32) :
    ℕ → Store → UInt32 → UInt32 → Option (Store × List UInt32)
  | 0, _, _, _ => none
  | fuel + 1, s, walk, next =>
      if walk = null then some (s, [])
      else do
        let s := s.release walk (left walk)
        let after ← s.loadNextOrNull next
        let (s, released) ← clearLoop left fuel s next after
        return (s, walk :: released)

/-- `mmbuf_list_clear` -/
def clear (left : UInt32 → UInt32) : Option (Store × List UInt32) :=
  if s.list.head = null then some (s, [])
  else do
    let next ← s.loadNext s.list.head
    let (s, released) ← clearLoop left addresses s s.list.head next
    return ({ s with list := ⟨null, null, 0⟩ }, released)

/-- The loop of `mmbuf_list_sanity_check`, with the count and the last buffer. -/
def sanityLoop : ℕ → UInt32 → UInt32 → UInt32 → Option (UInt32 × UInt32)
  | 0, _, _, _ => none
  | fuel + 1, cnt, prev, walk =>
      if walk = null then some (cnt, prev) else sanityLoop fuel (cnt + 1) walk (s.next walk)

/-- `mmbuf_list_sanity_check`, with whether its assertions hold -/
def sanityCheck : Option Bool := do
  let (cnt, prev) ← s.sanityLoop addresses 0 null s.list.head
  return cnt = s.list.len ∧ prev = s.list.tail

end Store

/-- `mmbuf_list_init`, in any memory -/
def mmbufListInit (next : UInt32 → UInt32) : Store := ⟨⟨null, null, 0⟩, next⟩

/-- The operations on a list. -/
inductive Op where
  | prepend (mmbuf : UInt32)
  | append (mmbuf : UInt32)
  | remove (mmbuf : UInt32)
  | dequeue
  | dequeueTail
  | dequeueAll
  /-- What is left in the memory of the buffers once they are released. -/
  | clear (left : UInt32 → UInt32)

/-- What an operation returns. -/
inductive Ret where
  | void
  | present (found : Bool)
  | mmbuf (address : UInt32)
  /-- The linked list that begins at the address returned. -/
  | linked (nodes : Option (List UInt32))
  /-- The buffers that were released, one after another. -/
  | released (nodes : List UInt32)
  deriving DecidableEq

def Store.step (s : Store) : Op → Option (Store × Ret)
  | .prepend mmbuf => (s.prepend mmbuf).map (·, .void)
  | .append mmbuf => (s.append mmbuf).map (·, .void)
  | .remove mmbuf => (s.remove mmbuf).map fun (s, found) => (s, .present found)
  | .dequeue => s.dequeue.map fun (s, mmbuf) => (s, .mmbuf mmbuf)
  | .dequeueTail => s.dequeueTail.map fun (s, mmbuf) => (s, .mmbuf mmbuf)
  | .dequeueAll =>
      let (s, head) := s.dequeueAll
      some (s, .linked (follow s.next null addresses head))
  | .clear left => (s.clear left).map fun (s, nodes) => (s, .released nodes)

/-- The list in memory, until the program ends. -/
def program : Machine (Option Store) Op Ret where
  step s op :=
    match s.bind (·.step op) with
    | none => (none, .void)
    | some (s, ret) => (some s, ret)

end HalowBridge.Mmutils.Linked
