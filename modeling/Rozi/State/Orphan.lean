import Rozi.Library.KeyedTotals
import Rozi.Session.Media

/-!
Output that reached an attachment before the layout that creates its pane, kept per pane and
generation until the pane takes it.

A function of the store answers `none` where the source would panic: an `expect` that fails, a
counter that would go below zero, the assertion of `take`. What is stored is in memory at once, so
a sum of its sizes stays within a machine word and the source's saturating sums are plain ones.
-/

namespace Rozi

def orphanOutputCap : Nat := 256 * 1024

def orphanOutputGlobalCap : Nat := 4 * 1024 * 1024

def orphanOutputMediaCap : Nat := 64 * 1024 * 1024

def orphanOutputMediaGlobalCap : Nat := 128 * 1024 * 1024

def orphanOutputMediaFileCap : Nat := 64

def orphanOutputMediaGlobalFileCap : Nat := 128

def orphanOutputKeyCap : Nat := 4 * 1024

structure OrphanOutputKey where
  pane : PaneId
  generation : Nat
  deriving DecidableEq, Repr

structure OrphanLimits where
  mediaCap : Nat := orphanOutputMediaCap
  mediaGlobalCap : Nat := orphanOutputMediaGlobalCap
  mediaFileCap : Nat := orphanOutputMediaFileCap
  mediaGlobalFileCap : Nat := orphanOutputMediaGlobalFileCap
  deriving DecidableEq, Repr

structure OrphanOutputStore extends OrphanLimits where
  buffers : AList fun _ : OrphanOutputKey => Bytes := ∅
  media : AList fun _ : OrphanOutputKey => List TerminalOutputMedia := ∅
  order : List OrphanOutputKey := []
  retained : Nat := 0
  highWater : Nat := 0
  retainedMediaBytes : Nat := 0
  highWaterMediaBytes : Nat := 0
  retainedMediaFiles : Nat := 0
  highWaterMediaFiles : Nat := 0

structure OrphanOutputStats where
  retained : Nat
  highWater : Nat
  keys : Nat
  deriving DecidableEq, Repr

def checkedSub (total removed : Nat) : Option Nat :=
  if removed ≤ total then some (total - removed) else none

/-- A binding inside output that is appended after `offset` bytes. -/
def TerminalOutputMedia.shift (offset : Nat) (media : TerminalOutputMedia) : TerminalOutputMedia :=
  { media with commandRange := (media.commandRange.1 + offset, media.commandRange.2 + offset) }

namespace OrphanOutputStore

-- the length of a media file, which the terminal library knows
variable (byteLen : Nat → Nat)

def orphanMediaBytes (media : List TerminalOutputMedia) : Nat :=
  (media.map fun item => byteLen item.file).sum

def withMediaLimits (limits : OrphanLimits) : OrphanOutputStore := { limits with }

variable (store : OrphanOutputStore)

def stored (key : OrphanOutputKey) : Bytes := (store.buffers.lookup key).getD []

def storedMedia (key : OrphanOutputKey) : List TerminalOutputMedia :=
  (store.media.lookup key).getD []

def refuses (key : OrphanOutputKey) (bytes : Bytes) (media : List TerminalOutputMedia) : Bool :=
  (store.stored key).length + bytes.length > orphanOutputCap ∨
  store.retained + bytes.length > orphanOutputGlobalCap ∨
  orphanMediaBytes byteLen (store.storedMedia key) + orphanMediaBytes byteLen media >
    store.mediaCap ∨
  store.retainedMediaBytes + orphanMediaBytes byteLen media > store.mediaGlobalCap ∨
  (store.storedMedia key).length + media.length > store.mediaFileCap ∨
  store.retainedMediaFiles + media.length > store.mediaGlobalFileCap ∨
  (key ∉ store.buffers ∧ store.buffers.entries.length ≥ orphanOutputKeyCap)

def append (key : OrphanOutputKey) (bytes : Bytes) : OrphanOutputStore :=
  { store with
    order := if key ∈ store.buffers then store.order else store.order ++ [key]
    buffers := store.buffers.insert key (store.stored key ++ bytes)
    retained := store.retained + bytes.length
    highWater := max store.highWater (store.retained + bytes.length) }

/-- The bindings of an accepted insert, whose bytes start at `offset`. -/
def appendMedia (key : OrphanOutputKey) (offset : Nat) (media : List TerminalOutputMedia) :
    OrphanOutputStore :=
  if media.isEmpty then store
  else
    let bytes := store.retainedMediaBytes + orphanMediaBytes byteLen media
    let files := store.retainedMediaFiles + media.length
    { store with
      media := store.media.insert key
        (store.storedMedia key ++ media.map (TerminalOutputMedia.shift offset))
      retainedMediaBytes := bytes
      highWaterMediaBytes := max store.highWaterMediaBytes bytes
      retainedMediaFiles := files
      highWaterMediaFiles := max store.highWaterMediaFiles files }

def insertMedia (key : OrphanOutputKey) (bytes : Bytes) (media : List TerminalOutputMedia) :
    Bool × OrphanOutputStore :=
  if bytes.isEmpty then (true, store)
  else if store.refuses byteLen key bytes media then (false, store)
  else
    let offset := (store.stored key).length
    (true, (store.append key bytes).appendMedia byteLen key offset media)

def insert (key : OrphanOutputKey) (bytes : Bytes) : Bool × OrphanOutputStore :=
  store.insertMedia byteLen key bytes []

def removeMediaForKey (key : OrphanOutputKey) :
    Option (List TerminalOutputMedia × OrphanOutputStore) :=
  match store.media.lookup key with
  | none => some ([], store)
  | some removed => do
      let bytes ← checkedSub store.retainedMediaBytes (orphanMediaBytes byteLen removed)
      let files ← checkedSub store.retainedMediaFiles removed.length
      return (removed,
        { store with
          media := store.media.erase key
          retainedMediaBytes := bytes
          retainedMediaFiles := files })

def take (key : OrphanOutputKey) : Option (Option Bytes × OrphanOutputStore) :=
  match store.buffers.lookup key with
  | none => some (none, store)
  | some bytes => do
      let taken := { store with buffers := store.buffers.erase key }
      let (_, taken) ← taken.removeMediaForKey byteLen key
      let retained ← checkedSub taken.retained bytes.length
      let order := taken.order.filter (· ≠ key)
      if order.length = taken.buffers.entries.length then
        return (some bytes, { taken with retained, order })
      else none

def dropKey (key : OrphanOutputKey) : Option OrphanOutputStore := do
  let removed ← store.buffers.lookup key
  let retained ← checkedSub store.retained removed.length
  let dropped := { store with buffers := store.buffers.erase key, retained }
  let (_, dropped) ← dropped.removeMediaForKey byteLen key
  return dropped

/-- `order.retain` of `take_for_generation`: the keys that stay, and the store without the rest. -/
def dropStale (pane : PaneId) (generation : Nat) :
    List OrphanOutputKey → OrphanOutputStore → Option (List OrphanOutputKey × OrphanOutputStore)
  | [], store => some ([], store)
  | key :: keys, store =>
      if key.pane = pane ∧ key.generation < generation then do
        let store ← store.dropKey byteLen key
        dropStale pane generation keys store
      else do
        let (kept, store) ← dropStale pane generation keys store
        return (key :: kept, store)

def takeForGeneration (key : OrphanOutputKey) : Option (Option Bytes × OrphanOutputStore) := do
  let (order, store) ← dropStale byteLen key.pane key.generation store.order store
  take byteLen { store with order } key

def takeOwnedForGeneration (key : OrphanOutputKey) :
    Option (Option (Bytes × List TerminalOutputMedia) × OrphanOutputStore) := do
  let (media, store) ← store.removeMediaForKey byteLen key
  let (bytes, store) ← store.takeForGeneration byteLen key
  return (bytes.map (·, media), store)

def stats : OrphanOutputStats where
  retained := store.retained
  highWater := store.highWater
  keys := store.buffers.entries.length

end OrphanOutputStore

inductive OrphanCall where
  | insertMedia (key : OrphanOutputKey) (bytes : Bytes) (media : List TerminalOutputMedia)
  | take (key : OrphanOutputKey)
  | takeForGeneration (key : OrphanOutputKey)
  | takeOwnedForGeneration (key : OrphanOutputKey)
  deriving DecidableEq, Repr

inductive OrphanAnswer where
  | inserted (kept : Bool)
  | taken (bytes : Option Bytes)
  | owned (output : Option (Bytes × List TerminalOutputMedia))
  deriving DecidableEq, Repr

namespace OrphanOutputStore

variable (byteLen : Nat → Nat)

def call (store : OrphanOutputStore) :
    OrphanCall → Option (OrphanAnswer × OrphanOutputStore)
  | .insertMedia key bytes media =>
      let (kept, store) := store.insertMedia byteLen key bytes media
      some (.inserted kept, store)
  | .take key => (store.take byteLen key).map fun (bytes, store) => (.taken bytes, store)
  | .takeForGeneration key =>
      (store.takeForGeneration byteLen key).map fun (bytes, store) => (.taken bytes, store)
  | .takeOwnedForGeneration key =>
      (store.takeOwnedForGeneration byteLen key).map fun (output, store) => (.owned output, store)

def calls : OrphanOutputStore → List OrphanCall → Option (List OrphanAnswer × OrphanOutputStore)
  | store, [] => some ([], store)
  | store, call :: rest => do
      let (answer, store) ← store.call byteLen call
      let (answers, store) ← calls store rest
      return (answer :: answers, store)

end OrphanOutputStore

end Rozi
