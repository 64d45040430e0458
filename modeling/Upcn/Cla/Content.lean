import Mathlib.Data.List.Infix
import Upcn.Tcpclv3.Link

/-!
# The content of a frame

What a bundle parser makes of the bytes of a bundle.  `Parses p G` says that the parser goes
through them: `G s unread b` holds of the states in which it stands in the bundle, before the
bytes `unread`.  A call may be given more than these.

`Carries P v G content b` says that this content is a bundle of the version, which is delivered as
`b`, and a `Packet` is what is sent in a frame: the content, and what is to be delivered.
-/

namespace Upcn

open Upcn.Bundle6 (ParserStatus)
open Upcn.Tcpclv3 (Version BundleParser ParserResult)

variable {σ β : Type}

/-- What comes of a call that consumes so many of the bytes: the bundle is delivered with the last
one, or the parser goes on. -/
inductive Goes (p : BundleParser σ β) (G : σ → List UInt8 → β → Prop) (unread : List UInt8)
    (b : β) (consumed : Nat) (result : ParserResult σ β) : Prop where
  | done (hstatus : p.status result.parser = .done) (hall : consumed = unread.length)
    (hdelivered : result.delivered = [b])
  | on (hstands : G result.parser (unread.drop consumed) b) (hdelivered : result.delivered = [])

/-- The parser goes through a bundle. -/
structure Parses (p : BundleParser σ β) (G : σ → List UInt8 → β → Prop) : Prop where
  good : ∀ {s unread b}, G s unread b → p.status s = .good
  unique : ∀ {s unread b b'}, G s unread b → G s unread b' → b = b'
  ne_nil : ∀ {s unread b}, G s unread b → p.bulkRead s = none → unread ≠ []
  call : ∀ {s unread b}, G s unread b → p.bulkRead s = none →
    ∀ piece rest after, piece ≠ [] → piece ++ rest = unread ++ after →
      0 < (p.read s piece).consumed ∧ (p.read s piece).consumed ≤ piece.length ∧
        (p.read s piece).consumed ≤ unread.length ∧
        Goes p G unread b (p.read s piece).consumed (p.read s piece) ∧
        ∀ n, p.bulkRead (p.read s piece).parser = some n →
          p.status (p.read s piece).parser = .good →
            piece.length < (p.read s piece).consumed + n ∨
              (p.read s piece).consumed = piece.length
  bulk : ∀ {s unread b n}, G s unread b → p.bulkRead s = some n →
    n ≤ unread.length ∧ Goes p G unread b n (p.readBulk s (unread.take n)) ∧
      (p.status (p.readBulk s (unread.take n)).parser = .good →
        p.bulkRead (p.readBulk s (unread.take n)).parser = none)

/-- The content is a bundle for the parser of this version. -/
structure Carries (P : Version → BundleParser σ β) (v : Version) (G : σ → List UInt8 → β → Prop)
    (content : List UInt8) (b : β) : Prop where
  version : content.head?.bind Tcpclv3.Link.versionOf = some v
  start : ∀ s, G ((P v).reset s) content b ∧ (P v).bulkRead ((P v).reset s) = none

/-- Before the bundle is delivered there are bytes of it to come. -/
def Whole (G : σ → List UInt8 → β → Prop) (b : β) : Prop := ∀ s unread, G s unread b → unread ≠ []

variable {P : Version → BundleParser σ β} {v : Version} {G : σ → List UInt8 → β → Prop}
  {content : List UInt8} {b : β}

theorem Carries.ne_nil (h : Carries P v G content b) : content ≠ [] := by
  rintro rfl
  cases h.version

/-- What is sent in a frame. -/
structure Packet (β : Type) where
  content : List UInt8
  bundle : β

/-- Every packet is received as its bundle, by a parser that counts down to its last byte. -/
def Sound (P : Version → BundleParser σ β) (G : Version → σ → List UInt8 → β → Prop)
    (packets : List (Packet β)) : Prop :=
  ∀ f ∈ packets, ∃ v, Carries P v (G v) f.content f.bundle ∧ Whole (G v) f.bundle

end Upcn
