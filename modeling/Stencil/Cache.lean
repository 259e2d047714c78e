import Stencil.Document.Parse

/-!
# A cache of parsed templates

A cache keeps the documents of templates that were parsed, each under a digest of the template
and the nesting limit it was parsed with. It holds at most `capacity` of them and lets none go
until it is cleared; what does not fit is parsed and not kept, and neither is what does not
parse. It counts the look-ups that found a document and those that did not, in 64 bits each.

An entry carries the proof that parsing gives its document, so a look-up answers what parsing
would have answered unless two templates have the same digest.
-/

namespace Stencil

/-- A template that was parsed. -/
structure CacheEntry where
  /-- The nesting limit. -/
  limit : Nat
  /-- The template. -/
  source : String
  /-- Its document. -/
  document : Document
  /-- The document is what parsing gives. -/
  parse_eq : Document.parse limit source = .ok document

/-- Parsed templates, and the counts of look-ups. -/
structure Cache where
  /-- How many templates are kept at most. -/
  capacity : Nat
  /-- The digest of some bytes. -/
  digest : List UInt8 → List UInt8
  /-- The templates that are kept, the oldest first. -/
  entries : List CacheEntry
  /-- The look-ups that found a template, as far as 64 bits go. -/
  hits : Nat
  /-- The look-ups that found none, as far as 64 bits go. -/
  misses : Nat

namespace Cache

/-- A cache with nothing in it that takes digests in the way given. -/
def withDigest (digest : List UInt8 → List UInt8) (capacity : Nat) : Cache :=
  ⟨capacity, digest, [], 0, 0⟩

/-- A cache with nothing in it, where every text is its own digest. -/
def empty (capacity : Nat) : Cache := withDigest id capacity

/-- The lowest bytes of a number, the lowest first. -/
def littleEndian : (width : Nat) → Nat → List UInt8
  | 0, _ => []
  | width + 1, n => UInt8.ofNat n :: littleEndian width (n / 256)

/-- The bytes that a digest is taken of: eight of the nesting limit, then those of the template. -/
def keyBytes (limit : Nat) (source : String) : List UInt8 :=
  littleEndian 8 limit ++ source.toByteArray.data.toList

/-- What a template is kept under. -/
def key (c : Cache) (limit : Nat) (source : String) : List UInt8 := c.digest (keyBytes limit source)

/-- The entry of a template. -/
def find? (c : Cache) (limit : Nat) (source : String) : Option CacheEntry :=
  let key := c.key limit source
  c.entries.find? fun e => c.key e.limit e.source == key

/-- Whether a template is kept. -/
def contains (c : Cache) (limit : Nat) (source : String) : Bool := (c.find? limit source).isSome

/-- The number of templates that are kept. -/
def size (c : Cache) : Nat := c.entries.length

/-- Keeps one more entry if there is room. -/
def keep (c : Cache) (e : CacheEntry) : Cache :=
  if c.entries.length < c.capacity then { c with entries := c.entries ++ [e] } else c

/-- Lets all templates go; the counts stay. -/
def clear (c : Cache) : Cache := { c with entries := [] }

/-- One more on a count, which starts again at zero after 64 bits. -/
def tick (count : Nat) : Nat := (count + 1) % UInt64.size

/-- The document of a template, from the cache or else by parsing it, and the cache after
that. -/
def get (c : Cache) (limit : Nat) (source : String) : Except ParseError Document × Cache :=
  match c.find? limit source with
  | some e => (.ok e.document, { c with hits := tick c.hits })
  | none =>
    let c := { c with misses := tick c.misses }
    match h : Document.parse limit source with
    | .ok document => (.ok document, c.keep ⟨limit, source, document, h⟩)
    | .error e => (.error e, c)

/-- The document of a template through a cache, if there is one. -/
def lookUp (cache : Option Cache) (limit : Nat) (source : String) :
    Except ParseError Document × Option Cache :=
  match cache with
  | some c =>
    let (document, c) := c.get limit source
    (document, some c)
  | none => (Document.parse limit source, none)

end Cache

end Stencil
