import TagQuery.Selector.Refusal

/-!
# The selector cache

Selectors that have been read are kept with their texts, most recently used first. A text that is
kept is answered with the kept selector, which becomes the most recent one; any other text is read
anew and, if it is a selector, kept in place of the least recently used one when the cache is full.
A text that is refused leaves the kept selectors as they are.
-/

namespace TagQuery.Selector

/-- A selector as it was read once. Two readings, also of one text, have different numbers. -/
structure Reading where
  number : Nat
  selector : Selector
deriving DecidableEq, Repr

/-- The kept readings with their texts, most recently used first, and the counts of texts that
were answered from the cache, texts that were not, and readings made. -/
structure Cache where
  entries : List (String × Reading)
  hits : Nat
  misses : Nat
  readings : Nat
deriving DecidableEq, Repr

namespace Cache

def capacity : Nat := 256

def empty : Cache := ⟨[], 0, 0, 0⟩

def size (cache : Cache) : Nat := cache.entries.length

def find? (cache : Cache) (source : String) : Option Reading := cache.entries.lookup source

def others (entries : List (String × Reading)) (source : String) : List (String × Reading) :=
  entries.filter fun entry => entry.1 != source

def compile (cache : Cache) (source : String) : Except Refusal Reading × Cache :=
  match cache.find? source with
  | some reading =>
    (.ok reading, { cache with
      entries := (source, reading) :: others cache.entries source
      hits := cache.hits + 1 })
  | none =>
    match parse source with
    | .error refusal => (.error refusal, { cache with misses := cache.misses + 1 })
    | .ok selector =>
      let reading : Reading := ⟨cache.readings, selector⟩
      (.ok reading, { cache with
        entries := ((source, reading) :: cache.entries).take capacity
        misses := cache.misses + 1
        readings := cache.readings + 1 })

def compileAll (cache : Cache) : List String → List (Except Refusal Reading × Cache)
  | [] => []
  | source :: sources =>
    let step := cache.compile source
    step :: compileAll step.2 sources

end Cache

end TagQuery.Selector
