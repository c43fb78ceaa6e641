import PeerPool.Cluster.Identity
import PeerPool.Proofs.TextPieces

/-! A tag stands for one service only. Its text can be read back to the digest, and the text that was digested can be cut
at its first slash, so that nothing but a collision of the hash could give two services the same tag. -/

namespace PeerPool.Proofs.ServiceTags
open Cluster Base64 Text TextPieces

/-- The number that a digit stands for. -/
def valueOf (c : Char) : Nat := ((List.range 64).map digit).idxOf c

/-- The bytes of digits in groups of four. Padding ends the last group. -/
def decode : List Char → List UInt8
  | a :: b :: c :: d :: rest =>
    let first := UInt8.ofNat (valueOf a * 4 + valueOf b / 16)
    let second := UInt8.ofNat (valueOf b % 16 * 16 + valueOf c / 4)
    let third := UInt8.ofNat (valueOf c % 4 * 64 + valueOf d)
    if c = '=' then [first]
    else if d = '=' then [first, second]
    else first :: second :: third :: decode rest
  | _ => []

theorem valueOf_digit {value : Nat} (small : value < 64) : valueOf (digit value) = value := by
  have digits : ∀ value < 64, valueOf (digit value) = value := by decide +kernel
  exact digits value small

theorem digit_ne_padding {value : Nat} (small : value < 64) : digit value ≠ '=' := by
  have digits : ∀ value < 64, digit value ≠ '=' := by decide
  exact digits value small

theorem ofNat_eq {value : Nat} (byte : UInt8) (same : value = byte.toNat) : UInt8.ofNat value = byte := by
  rw [same, UInt8.ofNat_toNat]

theorem decode_encode (bytes : List UInt8) : decode (encode bytes) = bytes := by
  induction bytes using encode.induct with
  | case1 => rfl
  | case2 a =>
    have := a.toNat_lt
    rw [encode, decode, if_pos rfl, valueOf_digit (by omega), valueOf_digit (by omega)]
    rw [ofNat_eq a (by omega)]
  | case3 a b =>
    have := a.toNat_lt
    have := b.toNat_lt
    rw [encode, decode, if_neg (digit_ne_padding (by omega)), if_pos rfl]
    rw [valueOf_digit (by omega), valueOf_digit (by omega), valueOf_digit (by omega)]
    rw [ofNat_eq a (by omega), ofNat_eq b (by omega)]
  | case4 a b c rest ih =>
    have := a.toNat_lt
    have := b.toNat_lt
    have := c.toNat_lt
    rw [encode, decode, if_neg (digit_ne_padding (by omega)), if_neg (digit_ne_padding (by omega)), ih]
    rw [valueOf_digit (by omega), valueOf_digit (by omega), valueOf_digit (by omega), valueOf_digit (by omega)]
    rw [ofNat_eq a (by omega), ofNat_eq b (by omega), ofNat_eq c (by omega)]

theorem tagOfDigest_injective : Function.Injective Identity.tagOfDigest := by
  intro first second same
  have digits : encode first = encode second := by
    simpa [Identity.tagOfDigest] using congrArg String.toList same
  rw [← decode_encode first, digits, decode_encode]

/-- There is no slash in the namespace, as the cluster allows none there. -/
def Plain (identity : Identity) : Prop := '/' ∉ identity.ns.toList

instance (identity : Identity) : Decidable (Plain identity) := inferInstanceAs (Decidable (_ ∉ _))

/-- The first slash ends the namespace, whatever the name has. -/
theorem splitOnce_write {identity : Identity} (plain : Plain identity) :
    splitOnce ['/'] identity.write.toList = some (identity.ns.toList, identity.name.toList) := by
  rw [Identity.write, String.toList_append, String.toList_append]
  exact splitOnce_append plain _

theorem write_inj {first second : Identity} (plain : Plain first) (plain' : Plain second) :
    first.write = second.write ↔ first = second := by
  refine ⟨fun same => ?_, congrArg _⟩
  have parts : some (first.ns.toList, first.name.toList) = some (second.ns.toList, second.name.toList) := by
    rw [← splitOnce_write plain, same, splitOnce_write plain']
  obtain ⟨namespaces, names⟩ := Prod.mk.inj (Option.some.inj parts)
  exact congrArg₂ Identity.mk (String.toList_inj.mp namespaces) (String.toList_inj.mp names)

/-- What is digested for the tag. -/
def message (identity : Identity) : List UInt8 := identity.write.toUTF8.data.toList

theorem message_inj {first second : Identity} : message first = message second ↔ first.write = second.write := by
  rw [message, message, Array.toList_inj, ← ByteArray.ext_iff]
  exact String.toByteArray_inj

/-- Different messages of the same digest. -/
def Collide (first second : List UInt8) : Prop := first ≠ second ∧ Sha256.digest first = Sha256.digest second

instance (first second : List UInt8) : Decidable (Collide first second) := inferInstanceAs (Decidable (_ ∧ _))

theorem digest_eq_iff {first second : List UInt8} (distinct : ¬ Collide first second) :
    Sha256.digest first = Sha256.digest second ↔ first = second := by
  refine ⟨fun same => ?_, congrArg _⟩
  by_contra differ
  exact distinct ⟨differ, same⟩

/-- Services in namespaces without a slash are told apart by the texts of their identities, and by their tags as far as the
digests of these texts are. -/
theorem tag_eq_iff {first second : Identity} (plain : Plain first) (plain' : Plain second) :
    (first.write = second.write ↔ first = second) ∧ Function.Injective Identity.tagOfDigest ∧
      (¬ Collide (message first) (message second) → (first.tag = second.tag ↔ first = second)) := by
  refine ⟨write_inj plain plain', tagOfDigest_injective, ?_⟩
  intro distinct
  calc first.tag = second.tag
    _ ↔ Sha256.digest (message first) = Sha256.digest (message second) := tagOfDigest_injective.eq_iff
    _ ↔ message first = message second := digest_eq_iff distinct
    _ ↔ first = second := message_inj.trans (write_inj plain plain')

/-- Names may have slashes. -/
theorem tag_eq_iff_slashes : Plain ⟨"ns", "svc/1"⟩ ∧ Plain ⟨"ns", "svc/2"⟩ ∧
    ¬ Collide (message ⟨"ns", "svc/1"⟩) (message ⟨"ns", "svc/2"⟩) ∧
    (⟨"ns", "svc/1"⟩ : Identity).tag ≠ (⟨"ns", "svc/2"⟩ : Identity).tag := by
  have distinct : ¬ Collide (message ⟨"ns", "svc/1"⟩) (message ⟨"ns", "svc/2"⟩) := by decide +kernel
  refine ⟨by decide, by decide, distinct, ?_⟩
  rw [Ne, (tag_eq_iff (by decide) (by decide)).2.2 distinct]
  decide

/-- A slash in the namespace could be the one in front of the name. -/
example : (⟨"ns/svc", "1"⟩ : Identity).tag = (⟨"ns", "svc/1"⟩ : Identity).tag := rfl

end PeerPool.Proofs.ServiceTags
