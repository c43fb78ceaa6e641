import Mathlib.Logic.Relation
import PeerPool.Proofs.ConfigRoundTrip
import PeerPool.Proofs.YamlReading

/-! A configuration that was read had no key that there is no place for, none twice, and all that it cannot do without,
in every mapping that stands for a part of it. So a document to which such a key is added is refused, however deep the
key stands and however it is written, and nothing in it is lost when a configuration is written back. -/

namespace PeerPool.Proofs.StrictDocuments
open Relation (ReflTransGen)
open Yaml YamlReading YamlBlock YamlTree ConfigRoundTrip

/-- What a mapping with keys of its own describes in a configuration. -/
inductive Part where
  | config
  | peer
  | selector
  | expression
  | pool
deriving DecidableEq, Repr

namespace Part

/-- The keys that it cannot do without. -/
def required : Part → List String
  | .config => []
  | .peer => ["my-asn", "peer-asn", "peer-address"]
  | .selector => []
  | .expression => ["key", "operator"]
  | .pool => ["name", "protocol"]

/-- The keys that may be left out. -/
def optional : Part → List String
  | .config => ["peers", "bgp-communities", "address-pools"]
  | .peer => ["peer-port", "source-address", "hold-time", "router-id", "password", "node-selectors"]
  | .selector => ["match-labels", "match-expressions"]
  | .expression => ["values"]
  | .pool => ["addresses", "auto-assign", "avoid-buggy-ips"]

def keys (part : Part) : List String := part.required ++ part.optional

/-- The keys of the lists whose items are parts themselves. -/
def lists : Part → List (String × Part)
  | .config => [("peers", .peer), ("address-pools", .pool)]
  | .peer => [("node-selectors", .selector)]
  | .selector => [("match-expressions", .expression)]
  | .expression => []
  | .pool => []

end Part

/-- A part within another: an item of one of its lists. -/
inductive Within (reading : Reading) : Part × Node Nat → Part × Node Nat → Prop where
  | item {part listed : Part} {node key value item : Node Nat} {name : String} {anchor other : Option Nat}
      {entries : List (Node Nat × Node Nat)} {items : List (Node Nat)} :
      standing? reading node = some (.mapping anchor entries) → (key, value) ∈ entries → named? reading key = some name →
      (name, listed) ∈ part.lists → standing? reading value = some (.sequence other items) → item ∈ items →
      Within reading (part, node) (listed, item)

/-- The node stands where the document has to describe such a part. -/
def Expected (document : Document) (part : Part) (node : Node Nat) : Prop :=
  ∃ root, document.root = some root ∧ ReflTransGen (Within ⟨document.targets⟩) (.config, root) (part, node)

/-- The mapping has just these keys, and they are fit for the part. -/
structure Keyed (reading : Reading) (part : Part) (entries : List (Node Nat × Node Nat)) (names : List String) : Prop where
  keys : entries.map (fun entry => named? reading entry.1) = names.map some
  known : ∀ name ∈ names, name ∈ part.keys
  once : names.Nodup
  complete : ∀ name ∈ part.required, name ∈ names

/-- Every mapping that stands for a part of a configuration has the keys of that part. -/
def Strict (document : Document) : Prop :=
  ∀ part node, Expected document part node → ∀ anchor entries,
    standing? ⟨document.targets⟩ node = some (.mapping anchor entries) → ∃ names, Keyed ⟨document.targets⟩ part entries names

section

variable {reading : Reading}

/-- The node was read as such a part. -/
def Reads (reading : Reading) : Part → Node Nat → Prop
  | .config, node => ∃ config, Gives reading (Config.decode node) config
  | .peer, node => ∃ peer, Gives reading (Peer.decode node) peer
  | .selector, node => ∃ selector, Gives reading (NodeSelector.decode node) selector
  | .expression, node => ∃ expression, Gives reading (MatchExpression.decode node) expression
  | .pool, node => ∃ pool, Gives reading (AddressPool.decode node) pool

/-- What was read of a mapping, and that the parts in its lists were read as well. -/
structure Understood (reading : Reading) (part : Part) (entries : List (Node Nat × Node Nat))
    (fields : List (String × Node Nat)) : Prop where
  read : Fields reading part.keys entries fields
  complete : ∀ name ∈ part.required, name ∈ fields.map Prod.fst
  lists : ∀ name listed, (name, listed) ∈ part.lists → ∀ node, (name, node) ∈ fields → ∀ anchor items,
    standing? reading node = some (.sequence anchor items) → ∀ item ∈ items, Reads reading listed item

variable {node : Node Nat} {anchor : Option Nat} {entries : List (Node Nat × Node Nat)}

theorem config_understood (reads : Reads reading .config node) (stands : standing? reading node = some (.mapping anchor entries)) :
    ∃ fields, Understood reading .config entries fields := by
  obtain ⟨config, gives⟩ := reads
  obtain ⟨fields, first, gives⟩ := gives_bind gives
  obtain ⟨peers, ofPeers, gives⟩ := gives_bind gives
  obtain ⟨communities, -, gives⟩ := gives_bind gives
  obtain ⟨pools, ofPools, gives⟩ := gives_bind gives
  have read := gives_fields first stands
  refine ⟨fields, read.weaken (by decide), by simp [Part.required], ?_⟩
  intro name listed among node given anchor items stands
  simp only [Part.lists, List.mem_cons, List.not_mem_nil, or_false, Prod.mk.injEq] at among
  rcases among with ⟨rfl, rfl⟩ | ⟨rfl, rfl⟩
  · exact gives_listed ofPeers read.once given stands
  · exact gives_listed ofPools read.once given stands

theorem peer_understood (reads : Reads reading .peer node) (stands : standing? reading node = some (.mapping anchor entries)) :
    ∃ fields, Understood reading .peer entries fields := by
  obtain ⟨peer, gives⟩ := reads
  obtain ⟨fields, first, gives⟩ := gives_bind gives
  obtain ⟨localAsn, ofLocal, gives⟩ := gives_bind gives
  obtain ⟨peerAsn, ofPeer, gives⟩ := gives_bind gives
  obtain ⟨address, ofAddress, gives⟩ := gives_bind gives
  obtain ⟨port, -, gives⟩ := gives_bind gives
  obtain ⟨sourceAddress, -, gives⟩ := gives_bind gives
  obtain ⟨holdTime, -, gives⟩ := gives_bind gives
  obtain ⟨routerId, -, gives⟩ := gives_bind gives
  obtain ⟨password, -, gives⟩ := gives_bind gives
  obtain ⟨selectors, ofSelectors, gives⟩ := gives_bind gives
  have read := gives_fields first stands
  refine ⟨fields, read.weaken (by decide), ?_, ?_⟩
  · simp only [Part.required, List.forall_mem_cons, List.not_mem_nil, false_implies, implies_true, and_true]
    exact ⟨gives_required ofLocal, gives_required ofPeer, gives_required ofAddress⟩
  · intro name listed among node given anchor items stands
    simp only [Part.lists, List.mem_cons, List.not_mem_nil, or_false, Prod.mk.injEq] at among
    obtain ⟨rfl, rfl⟩ := among
    exact gives_listed ofSelectors read.once given stands

theorem selector_understood (reads : Reads reading .selector node)
    (stands : standing? reading node = some (.mapping anchor entries)) : ∃ fields, Understood reading .selector entries fields := by
  obtain ⟨selector, gives⟩ := reads
  obtain ⟨fields, first, gives⟩ := gives_bind gives
  obtain ⟨labels, -, gives⟩ := gives_bind gives
  obtain ⟨expressions, ofExpressions, gives⟩ := gives_bind gives
  have read := gives_fields first stands
  refine ⟨fields, read.weaken (by decide), by simp [Part.required], ?_⟩
  intro name listed among node given anchor items stands
  simp only [Part.lists, List.mem_cons, List.not_mem_nil, or_false, Prod.mk.injEq] at among
  obtain ⟨rfl, rfl⟩ := among
  exact gives_listed ofExpressions read.once given stands

theorem expression_understood (reads : Reads reading .expression node)
    (stands : standing? reading node = some (.mapping anchor entries)) : ∃ fields, Understood reading .expression entries fields := by
  obtain ⟨expression, gives⟩ := reads
  obtain ⟨fields, first, gives⟩ := gives_bind gives
  obtain ⟨key, ofKey, gives⟩ := gives_bind gives
  obtain ⟨operator, ofOperator, gives⟩ := gives_bind gives
  refine ⟨fields, (gives_fields first stands).weaken (by decide), ?_, by simp [Part.lists]⟩
  simp only [Part.required, List.forall_mem_cons, List.not_mem_nil, false_implies, implies_true, and_true]
  exact ⟨gives_required ofKey, gives_required ofOperator⟩

theorem pool_understood (reads : Reads reading .pool node) (stands : standing? reading node = some (.mapping anchor entries)) :
    ∃ fields, Understood reading .pool entries fields := by
  obtain ⟨pool, gives⟩ := reads
  obtain ⟨fields, first, gives⟩ := gives_bind gives
  obtain ⟨name, ofName, gives⟩ := gives_bind gives
  obtain ⟨protocol, ofProtocol, gives⟩ := gives_bind gives
  refine ⟨fields, (gives_fields first stands).weaken (by decide), ?_, by simp [Part.lists]⟩
  simp only [Part.required, List.forall_mem_cons, List.not_mem_nil, false_implies, implies_true, and_true]
  exact ⟨gives_required ofName, gives_required ofProtocol⟩

theorem reads_understood {part : Part} (reads : Reads reading part node)
    (stands : standing? reading node = some (.mapping anchor entries)) : ∃ fields, Understood reading part entries fields := by
  cases part with
  | config => exact config_understood reads stands
  | peer => exact peer_understood reads stands
  | selector => exact selector_understood reads stands
  | expression => exact expression_understood reads stands
  | pool => exact pool_understood reads stands

/-- A part within one that was read was read itself. -/
theorem within_reads {outer inner : Part × Node Nat} (reads : Reads reading outer.1 outer.2) (within : Within reading outer inner) :
    Reads reading inner.1 inner.2 := by
  cases within with
  | item stands member named among sequence listed =>
    obtain ⟨fields, understood⟩ := reads_understood reads stands
    exact understood.lists _ _ among _ (understood.read.mem member named) _ _ sequence _ listed

theorem reaches_reads {outer inner : Part × Node Nat} (reads : Reads reading outer.1 outer.2)
    (reaches : ReflTransGen (Within reading) outer inner) : Reads reading inner.1 inner.2 := by
  induction reaches with
  | refl => exact reads
  | tail _ within ih => exact within_reads ih within

theorem Understood.keyed {part : Part} {fields : List (String × Node Nat)} (understood : Understood reading part entries fields) :
    Keyed reading part entries (fields.map Prod.fst) := by
  obtain ⟨names, known, once⟩ := understood.read
  refine ⟨?_, known, once, understood.complete⟩
  have keys := congrArg (List.map Prod.fst) names
  simpa [Function.comp_def] using keys

theorem strict_of_reads {document : Document} (reads : ∀ root, document.root = some root → Reads ⟨document.targets⟩ .config root) :
    Strict document := by
  rintro part node ⟨root, rooted, reaches⟩ anchor entries stands
  obtain ⟨fields, understood⟩ := reads_understood (reaches_reads (reads root rooted) reaches) stands
  exact ⟨_, understood.keyed⟩

end

theorem decoded_strict {document : Document} {config : Config} (decoded : Config.ofDocument? document = some config) :
    Strict document := by
  apply strict_of_reads
  intro root rooted
  rw [Config.ofDocument?, rooted] at decoded
  obtain ⟨⟨value, left⟩, run, -⟩ := Option.map_eq_some_iff.mp decoded
  exact ⟨value, _, left, run⟩

/-- A text that is read as a configuration holds nothing, or a document that has the keys it should have. -/
theorem read_strict {text : String} {config : Config} (read : Config.read text = .ok config) :
    text.toList.all Config.isFiller = true ∨ ∃ document, Document.read? text = some document ∧ Strict document := by
  unfold Config.read at read
  split at read
  next filler => exact .inl filler
  next =>
    split at read
    next found =>
      obtain ⟨document, parsed, decoded⟩ := Option.bind_eq_some_iff.mp found
      exact .inr ⟨document, parsed, decoded_strict decoded⟩
    next => cases read

section

theorem unifyBreaks_filler {text : List Char} (readable : text.all isReadable = true) (filler : text.all Config.isFiller = true) :
    ∀ c ∈ unifyBreaks text, c = ' ' ∨ c = '\t' ∨ c = '\n' := by
  fun_induction unifyBreaks text with
  | case1 rest ih =>
    simp only [List.all_cons, Bool.and_eq_true] at readable filler
    exact List.forall_mem_cons.mpr ⟨.inr (.inr rfl), ih readable.2.2 filler.2.2⟩
  | case2 c rest _ ih =>
    simp only [List.all_cons, Bool.and_eq_true] at readable filler
    refine List.forall_mem_cons.mpr ⟨?_, ih readable.2 filler.2⟩
    have feed : c ≠ '\x0c' := by
      rintro rfl
      exact absurd readable.1 (by decide)
    have filled := filler.1
    simp only [Config.isFiller, Bool.or_eq_true, decide_eq_true_eq] at filled
    split
    · exact .inr (.inr rfl)
    · rcases filled with (((space | tab) | newline) | formFeed) | carriage
      · exact .inl space
      · exact .inr (.inl tab)
      · exact .inr (.inr newline)
      · exact absurd formFeed feed
      · simp_all
  | case3 => exact fun _ member => absurd member List.not_mem_nil

/-- Only a tab can be in the way where a key might begin. -/
theorem skipGap_blank {text : List Char} (blank : ∀ c ∈ text, c = ' ' ∨ c = '\t' ∨ c = '\n') (broken : Bool) (column : Nat) :
    ∃ ended last rest, Lexer.skipGap false false broken true column text = (ended, true, last, rest) ∧
      ∀ c ∈ rest.head?, c = '\t' := by
  induction text generalizing broken column with
  | nil => exact ⟨broken, column, [], rfl, nofun⟩
  | cons c text ih =>
    obtain ⟨here, later⟩ := List.forall_mem_cons.mp blank
    rcases here with rfl | rfl | rfl
    · exact ih later broken (column + 1)
    · exact ⟨broken, column, '\t' :: text, rfl, by simp⟩
    · exact ih later true 0

theorem run_blank {text : List Char} (blank : ∀ c ∈ text, c = ' ' ∨ c = '\t' ∨ c = '\n') {tokens : List Token}
    (run : ({ rest := text } : Lexer).run = some tokens) : tokens = [] := by
  obtain ⟨ended, last, rest, skipped, tab⟩ := skipGap_blank blank false 0
  have advanced : ({ rest := text } : Lexer).advance = some { column := last, rest := rest } := by
    unfold Lexer.advance
    simp only [Lexer.inFlow, Nat.lt_irrefl, decide_false, skipped]
    cases ended <;> rfl
  rw [Lexer.run, advanced] at run
  cases rest with
  | nil =>
    cases run
    rfl
  | cons c rest =>
    cases tab c rfl
    have taken : (({ column := last, rest := '\t' :: rest } : Lexer).closeTo last).token '\t' rest = none := by
      simp [Lexer.token, Lexer.closeTo, Lexer.inFlow, YamlLexer.isMarker_of_ne, Lexer.startsPlain, isGap, isBlank]
    simp only [taken] at run
    cases run

/-- White space alone holds no tree. -/
theorem filler_rootless {text : String} (filler : text.toList.all Config.isFiller = true) {document : Document}
    (parsed : Document.read? text = some document) : document.root = none := by
  obtain ⟨tokens, scanned, parsed⟩ := Option.bind_eq_some_iff.mp parsed
  unfold Token.scan at scanned
  split at scanned
  next readable =>
    rw [run_blank (unifyBreaks_filler readable filler) scanned] at parsed
    cases parsed
    rfl
  next => cases scanned

end

/-- The keys of a mapping that are written there as scalars. -/
def writtenKeys (entries : List (Node Nat × Node Nat)) : List String :=
  entries.filterMap fun entry => match entry.1 with
    | .scalar _ scalar => some scalar.text
    | _ => none

/-- A tree in which a mapping that stands for a part has got one more entry, under a key that the part does not have or
that the mapping has already. -/
inductive Tampered : Part → Node Nat → Node Nat → Prop where
  | here {part : Part} {anchor keyAnchor : Option Nat} {ahead behind : List (Node Nat × Node Nat)} {key : Scalar} {value : Node Nat} :
      key.text ∉ part.keys ∨ key.text ∈ writtenKeys (ahead ++ behind) →
      Tampered part (.mapping anchor (ahead ++ behind)) (.mapping anchor (ahead ++ (.scalar keyAnchor key, value) :: behind))
  | inside {part listed : Part} {anchor keyAnchor listAnchor : Option Nat} {ahead behind : List (Node Nat × Node Nat)} {key : Scalar}
      {before after : List (Node Nat)} {item changed : Node Nat} :
      (key.text, listed) ∈ part.lists → Tampered listed item changed →
      Tampered part (.mapping anchor (ahead ++ (.scalar keyAnchor key, .sequence listAnchor (before ++ item :: after)) :: behind))
        (.mapping anchor (ahead ++ (.scalar keyAnchor key, .sequence listAnchor (before ++ changed :: after)) :: behind))

theorem mem_writtenKeys {entries : List (Node Nat × Node Nat)} {name : String} (written : name ∈ writtenKeys entries)
    (reading : Reading) : some name ∈ entries.map fun entry => named? reading entry.1 := by
  obtain ⟨⟨key, value⟩, member, found⟩ := List.mem_filterMap.mp written
  refine List.mem_map.mpr ⟨_, member, ?_⟩
  dsimp only at found ⊢
  split at found
  next => cases found; rfl
  next => cases found

theorem unfit_here {part : Part} {keyAnchor : Option Nat} {ahead behind : List (Node Nat × Node Nat)} {key : Scalar} {value : Node Nat}
    (unfit : key.text ∉ part.keys ∨ key.text ∈ writtenKeys (ahead ++ behind)) (reading : Reading) {names : List String} :
    ¬ Keyed reading part (ahead ++ (.scalar keyAnchor key, value) :: behind) names := by
  intro keyed
  have keys := keyed.keys
  have here : named? reading (.scalar keyAnchor key) = some key.text := rfl
  rw [List.map_append, List.map_cons, here] at keys
  rcases unfit with unknown | repeated
  · have among : some key.text ∈ names.map some := by simp [← keys]
    obtain ⟨name, member, same⟩ := List.mem_map.mp among
    cases same
    exact unknown (keyed.known _ member)
  · have once := keyed.once.map (fun _ _ => Option.some.inj)
    rw [← keys, List.nodup_middle, List.nodup_cons, ← List.map_append] at once
    exact once.1 (mem_writtenKeys repeated reading)

/-- What was tampered with is where a part is expected. -/
theorem tampered_reached {part : Part} {before after : Node Nat} (tampered : Tampered part before after) (reading : Reading) :
    ∃ inner node anchor entries, ReflTransGen (Within reading) (part, after) (inner, node) ∧
      standing? reading node = some (.mapping anchor entries) ∧ ∀ names, ¬ Keyed reading inner entries names := by
  induction tampered with
  | here unfit => exact ⟨_, _, _, _, .refl, rfl, fun names => unfit_here unfit reading⟩
  | inside among _ ih =>
    obtain ⟨inner, node, anchor, entries, reaches, stands, unfit⟩ := ih
    refine ⟨inner, node, anchor, entries, .head ?_ reaches, stands, unfit⟩
    exact .item rfl (List.mem_append_right _ List.mem_cons_self) rfl among rfl (List.mem_append_right _ List.mem_cons_self)

theorem tampered_refused {before after : Node Nat} (tampered : Tampered .config before after) {text : String}
    (parsed : Document.read? text = some ⟨some after⟩) : Config.readBytes text.toUTF8 = .error .unreadable := by
  rw [readBytes_toUTF8]
  cases read : Config.read text with
  | error error =>
    cases error
    rfl
  | ok config =>
    rcases read_strict read with filler | ⟨document, found, strict⟩
    · cases filler_rootless filler parsed
    · cases parsed.symm.trans found
      obtain ⟨part, node, anchor, entries, reaches, stands, unfit⟩ := tampered_reached tampered ⟨Document.targets ⟨some after⟩⟩
      obtain ⟨names, keyed⟩ := strict part node ⟨after, rfl, reaches⟩ anchor entries stands
      exact (unfit names keyed).elim

/-- Whatever is read as a configuration has the keys that its parts may have, each once, and those that they must have. To add
one more to a document, wherever in it a part is described, makes it one that is refused, as any text of it is. -/
theorem keys_strict :
    (∀ bytes config, Config.readBytes bytes = .ok config → ∃ text, String.fromUTF8? bytes = some text ∧
      (text.toList.all Config.isFiller = true ∨ ∃ document, Document.read? text = some document ∧ Strict document)) ∧
    (∀ before after text, Tampered .config before after → Document.read? text = some ⟨some after⟩ →
      Config.readBytes text.toUTF8 = .error .unreadable) ∧
    (∀ (config : Config) entries, Tampered .config config.encode.toNode (Block.record entries).toNode → EntriesFit entries →
      Config.readBytes (Block.record entries).write.toUTF8 = .error .unreadable) := by
  refine ⟨?_, ?_, ?_⟩
  · intro bytes config read
    unfold Config.readBytes at read
    split at read
    next text valid => exact ⟨text, valid, read_strict read⟩
    next => cases read
  · intro before after text tampered parsed
    exact tampered_refused tampered parsed
  · intro config entries tampered fits
    exact tampered_refused tampered (read?_write entries fits)

section

/-- A configuration in which there is a part of each kind but a pool, each within the other. -/
def nested : Config where
  peers := [{
    localAsn := 1
    peerAsn := 2
    address := "r1"
    selectors := [{ labels := .singleton "weight" "1", expressions := [⟨"role", "In", ["edge"]⟩] }] }]

/-- The parts of its document, with more entries in the innermost mapping. -/
def expressionWith (more : List (String × Block)) : Block :=
  .record ([("key", .text "role"), ("operator", .text "In"), ("values", .list [.text "edge"])] ++ more)

def selectorWith (more : List (String × Block)) : Block :=
  .record [("match-labels", .record [("weight", .text "1")]), ("match-expressions", .list [expressionWith more])]

def peerWith (more : List (String × Block)) : Block :=
  .record [("my-asn", .word "1"), ("peer-asn", .word "2"), ("peer-address", .text "r1"),
    ("node-selectors", .list [selectorWith more])]

def nestedWith (more : List (String × Block)) : List (String × Block) :=
  [("peers", .list [peerWith more])]

theorem encode_nested : nested.encode = .record (nestedWith []) := by
  rfl

theorem fits_nested {more : List (String × Block)} (fits : EntriesFit more) : EntriesFit (nestedWith more) := by
  have numbers : fitsPlain "1".toList = true ∧ fitsPlain "2".toList = true := by decide
  simpa [nestedWith, peerWith, selectorWith, expressionWith, EntriesFit, ItemsFit, WordsFit] using ⟨numbers.1, numbers.2, fits⟩

theorem tampered_nested {key : String} {value : Block} (unfit : key ∉ Part.expression.keys ∨ key ∈ ["key", "operator", "values"]) :
    Tampered .config nested.encode.toNode (Block.record (nestedWith [(key, value)])).toNode := by
  let keys : List (String × Block) := [("key", .text "role"), ("operator", .text "In"), ("values", .list [.text "edge"])]
  have innermost : Tampered .expression (expressionWith []).toNode (expressionWith [(key, value)]).toNode :=
    @Tampered.here .expression none none (Block.toEntries keys) [] ⟨.ofText key, none, key⟩ value.toNode unfit
  have inSelector : Tampered .selector (selectorWith []).toNode (selectorWith [(key, value)]).toNode :=
    @Tampered.inside .selector .expression none none none (Block.toEntries [("match-labels", .record [("weight", .text "1")])]) []
      ⟨.ofText "match-expressions", none, "match-expressions"⟩ [] [] _ _ (by decide) innermost
  have inPeer : Tampered .peer (peerWith []).toNode (peerWith [(key, value)]).toNode :=
    @Tampered.inside .peer .selector none none none
      (Block.toEntries [("my-asn", .word "1"), ("peer-asn", .word "2"), ("peer-address", .text "r1")]) []
      ⟨.ofText "node-selectors", none, "node-selectors"⟩ [] [] _ _ (by decide) inSelector
  exact @Tampered.inside .config .peer none none none [] [] ⟨.ofText "peers", none, "peers"⟩ [] [] _ _ (by decide) inPeer

theorem keys_strict_nested :
    (∃ text, String.fromUTF8? nested.write.toUTF8 = some text ∧
      (text.toList.all Config.isFiller = true ∨ ∃ document, Document.read? text = some document ∧ Strict document)) ∧
    Config.readBytes (Block.record (nestedWith [("weight", .record [("a", .text "b")])])).write.toUTF8 = .error .unreadable ∧
    Config.readBytes (Block.record (nestedWith [("values", .word "1")])).write.toUTF8 = .error .unreadable := by
  have unknownFits : EntriesFit (nestedWith [("weight", .record [("a", .text "b")])]) :=
    fits_nested (by simp [EntriesFit, WordsFit])
  have repeatedFits : EntriesFit (nestedWith [("values", .word "1")]) :=
    fits_nested ⟨by rw [WordsFit]; decide, by rw [EntriesFit]; trivial⟩
  refine ⟨keys_strict.1 _ nested (readBytes_write nested), ?_, ?_⟩
  · exact keys_strict.2.1 _ _ _ (tampered_nested (.inl (by decide))) (read?_write _ unknownFits)
  · exact keys_strict.2.2 nested _ (tampered_nested (.inr (by decide))) repeatedFits

end

end PeerPool.Proofs.StrictDocuments
