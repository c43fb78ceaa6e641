import Mathlib.Data.List.Forall2
import PeerPool.Proofs.AddressGrammar
import PeerPool.Proofs.Distinct
import PeerPool.Proofs.JsonText
import PeerPool.Provider.Client

/-! A reservation is read back from whatever describes it: an object with its fields in any order and among any others,
or the list of their values. The tags may be left out where there are none; nothing is read in which the address or the
prefix length is not given, or is none. -/

namespace PeerPool.Proofs.ReservationRoundTrip
open Json RawJson JsonText Distinct
open Provider (Reservation readAnswer)
open Provider.Reservation

/-- The members that hold a reservation. -/
inductive Holds (reservation : Reservation) : List (String × Json) → Prop where
  | whole : Holds reservation [
      ("id", .str reservation.id),
      ("address", .str reservation.address.write),
      ("cidr", .ofNat reservation.prefixLength.toNat),
      ("tags", Json.strings reservation.tags)]
  | untagged : reservation.tags = [] → Holds reservation [
      ("id", .str reservation.id),
      ("address", .str reservation.address.write),
      ("cidr", .ofNat reservation.prefixLength.toNat)]

/-- The values that describe a reservation. -/
inductive Describes (reservation : Reservation) : Json → Prop where
  | object {members fields : List (String × Json)} : Holds reservation fields →
      (members.filter fun member => keys.contains member.1).Perm fields → Describes reservation (.obj members)
  | list {fields : List (String × Json)} : Holds reservation fields → Describes reservation (.arr (fields.map Prod.snd))

section

variable {reservation : Reservation} {fields : List (String × Json)}

theorem mapM_some_iff {α β : Type} {read : α → Option β} {values : List α} {results : List β} :
    values.mapM read = some results ↔ List.Forall₂ (read · = some ·) values results := by
  induction values generalizing results with
  | nil => cases results <;> simp
  | cons value values ih =>
    rw [List.mapM_cons]
    cases first : read value with
    | none => cases results <;> simp [first]
    | some result => cases later : values.mapM read <;> cases results <;> simp [first, later, ← ih]

theorem mem_of_each {α β : Type} {related : α → β → Prop} {values : List α} {results : List β} {result : β}
    (each : List.Forall₂ related values results) (member : result ∈ results) : ∃ value ∈ values, related value result := by
  induction each with
  | nil => cases member
  | cons first _ ih =>
    rcases List.mem_cons.mp member with rfl | later
    · exact ⟨_, List.mem_cons_self, first⟩
    · obtain ⟨value, inside, same⟩ := ih later
      exact ⟨value, List.mem_cons_of_mem _ inside, same⟩

theorem mapM_str (values : List String) : values.mapM (Json.str? ∘ Json.str) = some values :=
  mapM_some_iff.mpr (List.forall₂_same.mpr fun _ _ => rfl)

theorem nat?_ofNat {value bound : Nat} (small : value < bound) : (Json.ofNat value).nat? bound = some value := by
  have within : (0 : Int) ≤ value ∧ (value : Int) < bound := by omega
  rw [Json.ofNat, Json.nat?, if_pos within, Int.toNat_natCast]

theorem ofFields_encoded {tags : Option Json} (given : tags.getD (.arr []) = Json.strings reservation.tags) :
    ofFields? (.str reservation.id) (.str reservation.address.write) (.ofNat reservation.prefixLength.toNat) tags =
      some reservation := by
  have length := nat?_ofNat reservation.prefixLength.toNat_lt
  simp [ofFields?, given, length, Json.strings, Json.str?, Json.items?, mapM_str, AddressRoundTrip.read_write]

theorem Holds.once (holds : Holds reservation fields) : (fields.map Prod.fst).Nodup := by
  cases holds <;> simp

theorem Holds.known (holds : Holds reservation fields) : (fields.filter fun member => keys.contains member.1) = fields := by
  cases holds <;> simp [keys]

theorem readable_ofNat {value : Nat} (small : value < 256) (depth : Nat) : Readable depth (.ofNat value) := by
  have low : -Int.pow 2 63 ≤ 0 := by decide
  have high : 256 ≤ Int.pow 2 64 := by decide
  rw [Json.ofNat, Readable]
  omega

theorem readable_strings (values : List String) (depth : Nat) : Readable (depth + 1) (Json.strings values) := by
  rw [Json.strings, Readable]
  intro item member
  obtain ⟨value, -, rfl⟩ := List.mem_map.mp member
  simp [Readable]

theorem Holds.readable (holds : Holds reservation fields) : ∀ field ∈ fields, Readable depthLimit field.2 := by
  have length : Readable depthLimit (.ofNat reservation.prefixLength.toNat) := readable_ofNat reservation.prefixLength.toNat_lt _
  cases holds with
  | whole => simpa [Readable] using ⟨length, readable_strings _ _⟩
  | untagged => simpa [Readable] using length

theorem Holds.read (holds : Holds reservation fields) : (do
    ofFields? (← fields.lookup "id") (← fields.lookup "address") (← fields.lookup "cidr") (fields.lookup "tags")) =
      some reservation := by
  cases holds with
  | whole => exact ofFields_encoded rfl
  | untagged none =>
    apply ofFields_encoded
    rw [none]
    rfl

/-- A member with a known name is found where the fields are the only ones with such names. -/
theorem member?_of_perm {members : List (String × Json)} (holds : Holds reservation fields)
    (same : (members.filter fun member => keys.contains member.1).Perm fields) {name : String} (known : keys.contains name = true) :
    Json.member? members name = fields.lookup name := by
  have reversed : (members.reverse.filter fun member => keys.contains member.1).Perm fields := by
    rw [List.filter_reverse]
    exact (List.reverse_perm _).trans same
  rw [Json.member?, ← lookup_filter keys.contains known]
  exact (lookup_perm reversed.symm holds.once name).symm

theorem decode_described {json : Json} (described : Describes reservation json) : decode? json = some reservation := by
  cases described with
  | @object members fields holds same =>
    have found {name : String} (known : keys.contains name = true) := member?_of_perm holds same known
    rw [decode?, found (by decide), found (by decide), found (by decide), found (by decide)]
    exact holds.read
  | @list fields holds =>
    have read := holds.read
    cases holds <;> exact read

theorem mapM_names (members : List (String × Json)) :
    (toRawMembers members).mapM (fun (name, value) => (text? name).map (·, value)) =
      some (members.map fun member => (member.1, toRaw member.2)) := by
  rw [toRawMembers_eq]
  apply mapM_some_iff.mpr
  apply List.forall₂_map_left_iff.mpr
  apply List.forall₂_map_right_iff.mpr
  apply List.forall₂_same.mpr
  intro member _
  simp [text?_flatMap]

/-- The members of a text with known names, as they were written. -/
theorem known?_toRawMembers {names : List String} {members : List (String × Json)}
    (once : ((members.filter fun member => names.contains member.1).map Prod.fst).Nodup) :
    known? names (toRawMembers members) =
      some ((members.filter fun member => names.contains member.1).map fun member => (member.1, toRaw member.2)) := by
  rw [known?, mapM_names]
  simp only [Option.bind_eq_bind, Option.bind_some, List.filter_map, List.map_map]
  exact if_pos once

/-- Fields are read as they were written. -/
theorem mapM_toRaw (each : ∀ field ∈ fields, Readable depthLimit field.2) :
    (fields.map fun field => (field.1, toRaw field.2)).mapM (fun (name, value) => (value.value? depthLimit).map (name, ·)) =
      some fields := by
  apply mapM_some_iff.mpr
  apply List.forall₂_map_left_iff.mpr
  apply List.forall₂_same.mpr
  intro field member
  simp [value?_toRaw (each field member)]

theorem ofRaw_described {json : Json} (described : Describes reservation json) : ofRaw? (toRaw json) = some reservation := by
  cases described with
  | @object members fields holds same =>
    have once : ((members.filter fun member => keys.contains member.1).map Prod.fst).Nodup :=
      (same.map Prod.fst).nodup_iff.mpr holds.once
    have readable : ∀ member ∈ members.filter fun member => keys.contains member.1, Readable depthLimit member.2 :=
      fun member inside => holds.readable member (same.mem_iff.mp inside)
    have known : ((members.filter fun member => keys.contains member.1).filter fun member => keys.contains member.1).Perm fields := by
      rwa [List.filter_filter, List.filter_congr fun _ _ => Bool.and_self _]
    rw [ofRaw?, toRaw, fields?, known?_toRawMembers once]
    have read := mapM_toRaw readable
    simp only [Option.bind_eq_bind, Option.bind_some]
    rw [read]
    exact decode_described (.object holds known)
  | @list fields holds =>
    have zipped : fields? keys (toRaw (.arr (fields.map Prod.snd))) = some (fields.map fun field => (field.1, toRaw field.2)) := by
      cases holds <;> rfl
    have read := mapM_toRaw holds.readable
    have whole : (fields.filter fun member => keys.contains member.1).Perm fields := .of_eq holds.known
    rw [ofRaw?, zipped]
    simp only [Option.bind_eq_bind, Option.bind_some]
    rw [read]
    exact decode_described (.object holds whole)

theorem answer_described {json : Json} (described : Describes reservation json) :
    readAnswer ofRaw? (.ok json.write) = .ok reservation := by
  rw [readAnswer, ofText_write, Option.bind_some, ofRaw_described described]

end

/-- A whole number that a prefix can be as long as. -/
def IsLength : Json → Prop
  | .int value => 0 ≤ value ∧ value < 256
  | _ => False

/-- The text of an address. -/
def IsAddress : Json → Prop
  | .str text => ∃ address, AddressGrammar.Denotes text.toList address
  | _ => False

/-- What stands in a text for a name, each time that it is given. -/
def given (members : List (List Char × RawJson)) (key : String) : List RawJson :=
  members.filterMap fun (name, value) => if text? name = some key then some value else none

section

variable {reservation : Reservation}

theorem ofFields_fit {id address prefixLength : Json} {tags : Option Json}
    (read : ofFields? id address prefixLength tags = some reservation) : IsAddress address ∧ IsLength prefixLength := by
  simp only [ofFields?, Option.bind_eq_bind, Option.bind_eq_some_iff] at read
  obtain ⟨name, -, text, isText, found, isAddress, length, isLength, -⟩ := read
  constructor
  · cases address with
    | str value =>
      cases isText
      exact ⟨found, AddressGrammar.read_iff.mp isAddress⟩
    | _ => cases isText
  · cases prefixLength with
    | int value =>
      rw [Json.nat?] at isLength
      split at isLength
      next small => exact small
      next => cases isLength
    | _ => cases isLength

/-- What is read has an address and a prefix length that are what they should be. -/
theorem decode_fit {members : List (String × Json)} (read : decode? (.obj members) = some reservation) :
    (∃ value, Json.member? members "address" = some value ∧ IsAddress value) ∧
    (∃ value, Json.member? members "cidr" = some value ∧ IsLength value) := by
  simp only [decode?, Option.bind_eq_bind, Option.bind_eq_some_iff] at read
  obtain ⟨id, -, address, first, length, second, read⟩ := read
  obtain ⟨isAddress, isLength⟩ := ofFields_fit read
  exact ⟨⟨address, first, isAddress⟩, ⟨length, second, isLength⟩⟩

theorem given_eq {members : List (List Char × RawJson)} {named : List (String × RawJson)} (key : String)
    (each : List.Forall₂ (fun (name, value) entry => (text? name).map (·, value) = some entry) members named) :
    given members key = (named.filter fun entry => entry.1 == key).map Prod.snd := by
  induction each with
  | nil => rfl
  | @cons member entry members named read _ ih =>
    obtain ⟨text, spelled, rfl⟩ := Option.map_eq_some_iff.mp read
    have later := ih
    unfold given at later ⊢
    by_cases same : text = key <;> simp [spelled, same, later]

theorem given_toRawMembers (members : List (String × Json)) (key : String) :
    given (toRawMembers members) key = (members.filter fun member => member.1 == key).map (toRaw ·.2) := by
  rw [given_eq key (mapM_some_iff.mp (mapM_names members)), List.filter_map, List.map_map]
  rfl

/-- What is known under a name is all that is given for it. -/
theorem given_of_known {names : List String} {members : List (List Char × RawJson)} {fields : List (String × RawJson)}
    (known : known? names members = some fields) :
    (fields.map Prod.fst).Nodup ∧ ∀ key ∈ names, ∀ raw, (key, raw) ∈ fields → given members key = [raw] := by
  obtain ⟨named, read, kept⟩ := Option.bind_eq_some_iff.mp known
  simp only at kept
  split at kept
  next once =>
    cases kept
    refine ⟨once, ?_⟩
    intro key among raw member
    have single := filter_of_mem once member
    have narrow : (named.filter fun entry => (entry.1 == key) && names.contains entry.1) = named.filter fun entry => entry.1 == key := by
      apply List.filter_congr
      intro entry _
      by_cases same : entry.1 = key <;> simp [same, among]
    rw [List.filter_filter, narrow] at single
    rw [given_eq key (mapM_some_iff.mp read), single]
    rfl
  next => cases kept

theorem ofRaw_fit {members : List (List Char × RawJson)} (read : ofRaw? (.object members) = some reservation) :
    (∃ raw value, given members "address" = [raw] ∧ raw.value? depthLimit = some value ∧ IsAddress value) ∧
    (∃ raw value, given members "cidr" = [raw] ∧ raw.value? depthLimit = some value ∧ IsLength value) := by
  obtain ⟨fields, known, read⟩ := Option.bind_eq_some_iff.mp read
  obtain ⟨values, mapped, read⟩ := Option.bind_eq_some_iff.mp read
  obtain ⟨once, gives⟩ := given_of_known known
  have each := mapM_some_iff.mp mapped
  have traced {key : String} (among : key ∈ keys) {value : Json} (found : Json.member? values key = some value) :
      ∃ raw, given members key = [raw] ∧ raw.value? depthLimit = some value := by
    have member : (key, value) ∈ values := List.mem_reverse.mp (mem_of_lookup found)
    obtain ⟨⟨name, raw⟩, listed, stands⟩ := mem_of_each each member
    obtain ⟨read, counts, same⟩ := Option.map_eq_some_iff.mp stands
    cases same
    exact ⟨raw, gives _ among raw listed, counts⟩
  obtain ⟨⟨address, first, isAddress⟩, ⟨length, second, isLength⟩⟩ := decode_fit read
  obtain ⟨raw, alone, stands⟩ := traced (by decide) first
  obtain ⟨other, single, counts⟩ := traced (by decide) second
  exact ⟨⟨raw, address, alone, stands, isAddress⟩, ⟨other, length, single, counts, isLength⟩⟩

end

/-- An answer that lists reservations is read as all of them, in their order, whatever else it holds. -/
theorem answer_listed {members : List (String × Json)} {items : List Json} {reservations : List Reservation}
    (only : (members.filter fun member => ["ip_addresses"].contains member.1) = [("ip_addresses", .arr items)])
    (each : List.Forall₂ (fun item reservation => Describes reservation item) items reservations) :
    readAnswer Provider.reservations? (.ok (Json.obj members).write) = .ok reservations := by
  have once : ((members.filter fun member => ["ip_addresses"].contains member.1).map Prod.fst).Nodup := by
    rw [only]
    exact List.nodup_singleton _
  have known : known? ["ip_addresses"] (toRawMembers members) = some [("ip_addresses", toRaw (.arr items))] := by
    rw [known?_toRawMembers once, only]
    rfl
  have read : (toRaws items).mapM ofRaw? = some reservations := by
    rw [toRaws_eq]
    apply mapM_some_iff.mpr
    apply List.forall₂_map_left_iff.mpr
    exact each.imp fun _ _ described => ofRaw_described described
  have listed : Provider.reservations? (toRaw (.obj members)) = some reservations := by
    rw [toRaw, Provider.reservations?, Provider.listed?, fields?, known]
    exact read
  rw [readAnswer, ofText_write, Option.bind_some, listed]

theorem describes_encode (reservation : Reservation) : Describes reservation reservation.encode :=
  .object .whole (.of_eq (Holds.known .whole))

/-- What a reservation is encoded as, and whatever else describes it, is read as that reservation. An object is refused, be it
a value or in a text, unless just one prefix length and one address are given in it, and are what they should be. -/
theorem reservation_read :
    (∀ reservation : Reservation, decode? reservation.encode = some reservation ∧
      readAnswer ofRaw? (.ok reservation.encode.write) = .ok reservation) ∧
    (∀ reservation json, Describes reservation json →
      decode? json = some reservation ∧ readAnswer ofRaw? (.ok json.write) = .ok reservation) ∧
    (∀ members,
      (∀ value, Json.member? members "cidr" = some value → ¬ IsLength value) ∨
      (∀ value, Json.member? members "address" = some value → ¬ IsAddress value) →
      decode? (.obj members) = none) ∧
    (∀ text members, RawJson.ofText? text.toList = some (.object members) →
      (∀ raw value, given members "cidr" = [raw] → raw.value? depthLimit = some value → ¬ IsLength value) ∨
      (∀ raw value, given members "address" = [raw] → raw.value? depthLimit = some value → ¬ IsAddress value) →
      readAnswer ofRaw? (.ok text) = .error .unreadable) := by
  refine ⟨?_, ?_, ?_, ?_⟩
  · intro reservation
    exact ⟨decode_described (describes_encode reservation), answer_described (describes_encode reservation)⟩
  · intro reservation json described
    exact ⟨decode_described described, answer_described described⟩
  · intro members unfit
    cases read : decode? (.obj members) with
    | none => rfl
    | some reservation =>
      obtain ⟨⟨address, first, isAddress⟩, ⟨length, second, isLength⟩⟩ := decode_fit read
      rcases unfit with noLength | noAddress
      · exact absurd isLength (noLength length second)
      · exact absurd isAddress (noAddress address first)
  · intro text members parsed unfit
    rw [readAnswer, parsed, Option.bind_some]
    cases read : ofRaw? (.object members) with
    | none => rfl
    | some reservation =>
      obtain ⟨⟨first, address, alone, stands, isAddress⟩, ⟨second, length, single, counts, isLength⟩⟩ := ofRaw_fit read
      rcases unfit with noLength | noAddress
      · exact absurd isLength (noLength second length single counts)
      · exact absurd isAddress (noAddress first address alone stands)

section

/-- A whole network, without tags. -/
def network : Reservation where
  id := "7e2f"
  address := .v6 ⟨#[0x2604, 0x1380, 0, 0, 0, 0, 0, 0], rfl⟩
  prefixLength := 56

/-- The members that describe it, with a prefix of some length, in another order and after one that is not known. -/
def shuffled (length : Int) : List (String × Json) :=
  [("public", .bool true), ("cidr", .int length), ("address", .str "2604:1380::"), ("id", .str "7e2f")]

theorem reservation_read_network :
    (decode? (.obj (shuffled 56)) = some network ∧ readAnswer ofRaw? (.ok (Json.obj (shuffled 56)).write) = .ok network) ∧
    (decode? (.arr [.str "7e2f", .str "2604:1380::", .int 56]) = some network ∧
      readAnswer ofRaw? (.ok (Json.arr [.str "7e2f", .str "2604:1380::", .int 56]).write) = .ok network) ∧
    decode? (.obj (shuffled 256)) = none ∧
    readAnswer ofRaw? (.ok (Json.obj (("cidr", .int 32) :: shuffled 56)).write) = .error .unreadable := by
  let fields : List (String × Json) := [("id", .str "7e2f"), ("address", .str "2604:1380::"), ("cidr", .int 56)]
  have holds : Holds network fields := .untagged rfl
  have among : Describes network (.obj (shuffled 56)) := by
    apply Describes.object holds
    have reversed : ((shuffled 56).filter fun member => keys.contains member.1) = fields.reverse := by
      simp [shuffled, keys, fields]
    rw [reversed]
    exact fields.reverse_perm
  refine ⟨reservation_read.2.1 network _ among, reservation_read.2.1 network _ (.list holds), ?_, ?_⟩
  · apply reservation_read.2.2.1
    left
    rintro _ ⟨⟩
    simp [IsLength]
  · apply reservation_read.2.2.2 _ _ (ofText_write _)
    left
    intro raw value alone
    have given := (given_toRawMembers _ "cidr").symm.trans alone
    simp [shuffled] at given

end

end PeerPool.Proofs.ReservationRoundTrip
