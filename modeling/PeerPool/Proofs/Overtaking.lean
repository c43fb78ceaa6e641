import PeerPool.Proofs.Coverage
import PeerPool.Proofs.FixedPoint
import PeerPool.Proofs.LoneRuns

/-! A resync lists the objects of the cluster before it waits for the lock, so passes may overtake
it that know more than its listing does. What they have brought about survives the resync as far
as the listing shows the same objects, and no further: whatever the listing does not show is
taken for gone, even if it was added since. -/

namespace PeerPool.Proofs.Overtaking
open PassLogic PassServices PassPeers Interleavings LoneRuns Drifts Coverage Synchronized Sites FixedPoint
open Provider Cluster

variable {σ : Type} {answer : Answers σ} {drifts : σ → σ → Prop} {settings : Settings} {document : σ → String}
  {reservations : σ → List Reservation} {location : Location}

def unrefused (answer : Answers σ) (deed : Deed σ) : Bool :=
  match deed.act with
  | .called call => granted call (answer deed.state call).1
  | _ => true

/-- Every call that is seen is granted. -/
def AllGranted (answer : Answers σ) (trace : List (Deed σ)) : Prop := ∀ deed ∈ trace, unrefused answer deed = true

instance (trace : List (Deed σ)) : Decidable (AllGranted answer trace) :=
  inferInstanceAs (Decidable (∀ deed ∈ trace, unrefused answer deed = true))

theorem mem_callsOf {trace : List (Deed σ)} {state : σ} {call : Call} (member : (state, call) ∈ callsOf trace) :
    ∃ deed ∈ trace, deed.state = state ∧ deed.act = .called call := by
  obtain ⟨deed, inside, seen⟩ := List.mem_filterMap.mp member
  refine ⟨deed, inside, ?_⟩
  split at seen
  next called =>
    cases seen
    exact ⟨rfl, called⟩
  next => cases seen

/-- A pass that a run shows is a pass by itself, in a world where calls are answered as in the run. -/
theorem performs_effect {view : σ → String × List Reservation} (kept : ∀ before after, drifts before after → view after = view before)
    {first begun ended : σ} {last : Machine settings σ} {who : Party} {request : Agent.Request} {reply : Agent.Reply request}
    {during trace : List (Deed σ)} (performs : Performs who request reply begun during ended trace)
    (steps : Steps answer drifts (Machine.start settings first) trace last) (grants : AllGranted answer trace) {pass : Pass Unit}
    (called : calledFor settings request reply = some pass) :
    ∃ changes, view (effect (stirred view answer) (begun, changes) pass).2.1 = view ended ∧
      (∀ before call, (before, call) ∈ made (stirred view answer) (begun, changes) pass →
        granted call (stirred view answer before call).1 = true) ∧
      ∀ before call, (before, call) ∈ made (stirred view answer) (begun, changes) pass →
        ∃ deed ∈ during, deed.state = (stir before).1 ∧ deed.act = .called call := by
  obtain ⟨failure, other, due, comes⟩ := performs.comes steps
  cases called.symm.trans due
  obtain ⟨changes, ends, seen⟩ := comes_effect kept comes
  have deeds (before : σ × List (Change view)) (call : Call) (member : (before, call) ∈ made (stirred view answer) (begun, changes) pass) :
      ∃ deed ∈ during, deed.state = (stir before).1 ∧ deed.act = .called call := by
    apply mem_callsOf
    rw [← seen]
    exact List.mem_map.mpr ⟨_, member, rfl⟩
  refine ⟨changes, ends, ?_, deeds⟩
  intro before call member
  obtain ⟨deed, inside, state, act⟩ := deeds before call member
  have whole : deed ∈ trace := by
    cases performs
    simp [inside]
  have answered := grants deed whole
  rw [unrefused, act, state] at answered
  exact answered

def Lists (batch : List Service) (identity : Identity) : Prop :=
  ∃ service ∈ batch, service.isLoadBalancer = true ∧ service.identity? = some identity

/-- What the addition of a node has brought about, and what becomes of it in a resync that begins later. -/
structure NodeFate (answer : Answers σ) (settings : Settings) (document : σ → String) (node : Node) (batch : List Node)
    (opened : σ) (during : List (Deed σ)) (added begun ended : σ) : Prop where
  /-- The provider was asked for the routers of the node, and the node has each of them as a peer. -/
  covered : (Config.read (document opened)).isOk = true → Selector.accepts settings.nodeSelector node.labels = true →
    ∀ name ∈ node.metadata.name, ∀ providerId ∈ node.assignedId?, ∃ deed ∈ during, ∃ addresses,
      deed.act = .called (.resolvePeers providerId) ∧ (answer deed.state (.resolvePeers providerId)).1 = .ok addresses ∧
      ∀ address ∈ addresses, Peered (document added) name address
  /-- If the resync has listed the node as one that is selected, its peers stay. -/
  stays : ∀ name ∈ node.metadata.name, Shows settings batch name → ∀ address, Peered (document begun) name address →
    Peered (document ended) name address
  /-- If it has not, they are gone. -/
  goes : (Config.read (document begun)).isOk = true → (∀ shown ∈ batch, Complete settings.nodeSelector shown) →
    ∀ name ∈ node.metadata.name, ¬ Shows settings batch name → ∀ address, ¬ Peered (document ended) name address

/-- What the addition of a service has brought about, and what becomes of it in a resync that begins later. -/
structure ServiceFate (settings : Settings) (document : σ → String) (reservations : σ → List Reservation) (service : Service)
    (batch : List Service) (opened added begun ended : σ) : Prop where
  /-- The service has an address, from its reservation unless it had one before, and the address is mapped. -/
  covered : (Config.read (document opened)).isOk = true → service.isLoadBalancer = true → ∀ identity ∈ service.identity?,
    ∃ cidr, comesTo settings identity (reservations added) service = some cidr ∧ Mapped (document added) cidr
  /-- If the resync has listed the service, its reservations stay, and so does the address that it is listed with. -/
  stays : ∀ shown ∈ batch, shown.isLoadBalancer = true → shown.identity? = service.identity? → ∀ identity ∈ service.identity?,
    (∀ reservation ∈ reservations begun, identity.tag ∈ reservation.tags → reservation ∈ reservations ended) ∧
    ∀ cidr ∈ comesTo settings identity (reservations begun) shown, Mapped (document begun) cidr → Mapped (document ended) cidr
  /-- What it has listed no service for is gone. -/
  goes : (Config.read (document begun)).isOk = true → (∀ shown ∈ batch, shown.isLoadBalancer = true → shown.identity?.isSome = true) →
    ∀ reservation, settings.providerTag ∈ reservation.tags → (∀ identity, Lists batch identity → identity.tag ∉ reservation.tags) →
      reservation ∉ reservations ended

theorem mem_tags_listed {batch : List Service} {tag : String} :
    tag ∈ tagsOf (batch.filter (·.isLoadBalancer)) ↔ ∃ identity, Lists batch identity ∧ identity.tag = tag := by
  simp only [tagsOf, List.mem_map, List.mem_filterMap, List.mem_filter, Lists, and_assoc]

theorem readable {text : String} (reads : (Config.read text).isOk = true) : ∃ config, Config.read text = .ok config := by
  cases read : Config.read text with
  | error error =>
    rw [read] at reads
    cases reads
  | ok config => exact ⟨config, rfl⟩

section

variable (lawful : Lawful document reservations answer location.name) (located : settings.location = some location)
  (aside : ∀ before after, drifts before after → holdings document reservations after = holdings document reservations before)
  {start : σ} {first second : List (Deed σ)} {last : Machine settings σ}
  (steps : Steps answer drifts (Machine.start settings start) (first ++ second) last) (grants : AllGranted answer (first ++ second))
include lawful located aside steps grants

theorem node_fate {node : Node} {batch : List Node} {opened added begun ended : σ} {during busy : List (Deed σ)}
    (adds : Performs .nodes .nodeEvent (.applied node) opened during added first)
    (syncs : Performs .resync .listNodes (.ok batch) begun busy ended (first ++ second)) :
    NodeFate answer settings document node batch opened during added begun ended := by
  obtain ⟨between, earlier, _⟩ := steps.split
  obtain ⟨others, finishes, allowed, _⟩ := performs_effect aside syncs steps grants rfl
  have left : document _ = document ended := congrArg Prod.fst finishes
  constructor
  · intro reads accepted name named providerId given
    obtain ⟨changes, ends, allowed, deeds⟩ :=
      performs_effect aside adds earlier (fun deed member => grants deed (List.mem_append_left _ member)) rfl
    obtain ⟨loaded, read⟩ := readable reads
    obtain ⟨asked, addresses, made, answered, peered⟩ :=
      granted_add_node lawful.stirred located named accepted given (by exact read) allowed
    obtain ⟨deed, member, state, act⟩ := deeds asked _ made
    refine ⟨deed, member, addresses, act, state ▸ answered, ?_⟩
    intro address inside
    have same : document _ = document added := congrArg Prod.fst ends
    exact same ▸ peered address inside
  · intro name _ shows address peered
    have keeps := granted_sync_nodes lawful.stirred located batch (begun, others) allowed
    exact left ▸ keeps name shows address peered
  · intro reads complete name _ hidden address peered
    obtain ⟨loaded, read⟩ := readable reads
    have clears := granted_sync_nodes_clears lawful.stirred located complete (begun, others) (by exact read) allowed
    exact hidden (clears name address (left ▸ peered))

theorem service_fate {service : Service} {batch : List Service} {opened added begun ended : σ} {during busy : List (Deed σ)}
    (adds : Performs .services .serviceEvent (.applied service) opened during added first)
    (syncs : Performs .resync .listServices (.ok batch) begun busy ended (first ++ second)) :
    ServiceFate settings document reservations service batch opened added begun ended := by
  obtain ⟨between, earlier, _⟩ := steps.split
  obtain ⟨others, finishes, allowed, _⟩ := performs_effect aside syncs steps grants rfl
  obtain ⟨stored, held⟩ := Prod.mk.inj finishes
  constructor
  · intro reads asks identity known
    obtain ⟨changes, ends, allowed, _⟩ :=
      performs_effect aside adds earlier (fun deed member => grants deed (List.mem_append_left _ member)) rfl
    obtain ⟨loaded, read⟩ := readable reads
    obtain ⟨cidr, comes, mapped⟩ := granted_add lawful.stirred settings located asks known (by exact read) allowed
    obtain ⟨stored, held⟩ := Prod.mk.inj ends
    exact ⟨cidr, held ▸ comes, stored ▸ mapped⟩
  · intro shown member asks alike identity known
    have spares := granted_sync lawful.stirred located batch (begun, others) allowed
    have listed : shown ∈ batch.filter (·.isLoadBalancer) := List.mem_filter.mpr ⟨member, asks⟩
    have tagged : identity.tag ∈ tagsOf (batch.filter (·.isLoadBalancer)) := mem_tagsOf listed (alike.trans known)
    constructor
    · intro reservation here tag
      exact held ▸ spares.reserved reservation here ⟨identity.tag, tagged, tag⟩
    · intro cidr comes mapped
      exact stored ▸ spares.mapped shown listed identity (alike.trans known) cidr comes mapped
  · intro reads identified reservation ours unlisted member
    obtain ⟨loaded, read⟩ := readable reads
    have known (shown : Service) (listed : shown ∈ batch.filter (·.isLoadBalancer)) : shown.identity?.isSome = true := by
      obtain ⟨inside, asks⟩ := List.mem_filter.mp listed
      exact identified shown inside asks
    have clears := granted_sync_clears lawful.stirred located known (begun, others) (by exact read) allowed
    have spared := clears reservation (held ▸ member)
    rw [leftOver, List.contains_iff_mem.mpr ours, Bool.true_and, Bool.not_eq_false'] at spared
    obtain ⟨tag, live, tagged⟩ := List.any_eq_true.mp spared
    obtain ⟨identity, lists, rfl⟩ := mem_tags_listed.mp live
    exact unlisted identity lists (List.contains_iff_mem.mp tagged)

end

/-- What a pass of a watch loop has added survives a resync that begins later, however the loops get
in each other's way, if the resync has listed the object that was added. Otherwise it does not. -/
theorem resync_spares_only_listed (lawful : Lawful document reservations answer location.name) (located : settings.location = some location)
    (aside : ∀ before after, drifts before after → holdings document reservations after = holdings document reservations before)
    (start : σ) (first second : List (Deed σ)) (last : Machine settings σ)
    (steps : Steps answer drifts (Machine.start settings start) (first ++ second) last) (grants : AllGranted answer (first ++ second)) :
    (∀ node batch opened during added begun busy ended, Performs .nodes .nodeEvent (.applied node) opened during added first →
      Performs .resync .listNodes (.ok batch) begun busy ended (first ++ second) →
      NodeFate answer settings document node batch opened during added begun ended) ∧
    ∀ service batch opened during added begun busy ended, Performs .services .serviceEvent (.applied service) opened during added first →
      Performs .resync .listServices (.ok batch) begun busy ended (first ++ second) →
      ServiceFate settings document reservations service batch opened added begun ended := by
  constructor
  · intro node batch opened during added begun busy ended adds syncs
    exact node_fate lawful located aside steps grants adds syncs
  · intro service batch opened during added begun busy ended adds syncs
    exact service_fate lawful located aside steps grants adds syncs

section

/-- A site at which no ID is given twice. -/
def Apart (offers : Nat → Offer) : Type := { site : Site // DistinctIds offers site }

variable {offers : Nat → Offer}

def Apart.text (site : Apart offers) : String := site.1.document.getD ""

def Apart.held (site : Apart offers) : List Reservation := site.1.reservations

def answerApart (offers : Nat → Offer) : Answers (Apart offers) := fun site call =>
  ((site.1.answer offers call).1, ⟨(site.1.answer offers call).2, site.2.step call⟩)

theorem lawful_apart (offers : Nat → Offer) (name : String) : Lawful Apart.text Apart.held (answerApart offers) name where
  store := {
    loads := fun site => (store_site offers name "").loads site.1
    patches := fun site => (store_site offers name "").patches site.1
    keeps := fun site => (store_site offers name "").keeps site.1 }
  inventory := {
    lists := fun site => (inventory_site offers).lists site.1
    keeps := fun site => (inventory_site offers).keeps site.1
    deletes := fun site => (inventory_site offers).deletes site.1 }
  creates site project request created answered := by
    cases answered
    exact ⟨rfl, rfl⟩
  refuses site project request error answered := by cases answered
  distinct site := site.2.held

/-- Services come and go. -/
def Drifting (before after : Apart offers) : Prop := holdings Apart.text Apart.held after = holdings Apart.text Apart.held before

instance (before after : Apart offers) : Decidable (Drifting before after) :=
  inferInstanceAs (Decidable (holdings Apart.text Apart.held after = holdings Apart.text Apart.held before))

def bareSite : Site where
  document := some ({} : Config).write

/-- A service has come that has no address yet. -/
def stockedSite : Site where
  document := some ({} : Config).write
  services := [web]
  keys := keys_single web

def bare : Apart counted := ⟨bareSite, distinct_counted rfl⟩

def stocked : Apart counted := ⟨stockedSite, distinct_counted rfl⟩

def added : Apart counted := (effect (answerApart counted) stocked (Pass.services plain .add [web])).2

/-- A resync has listed these services, and then the service that has come is added. -/
def upToAddition (state : Apart counted) (batch : List Service) : List (Deed (Apart counted)) :=
  listingDeeds (answerApart counted) plain state [] batch ++ addingDeeds (answerApart counted) plain stocked web

def afterAddition (batch : List Service) : List (Deed (Apart counted)) :=
  passDeeds (answerApart counted) .resync added (Pass.services plain .sync batch)

theorem addition_seen (state : Apart counted) (batch : List Service)
    (drifted : Drifting (effect (answerApart counted) state (Pass.nodes plain .sync [])).2 stocked) :
    ∃ last during busy,
      Steps (answerApart counted) Drifting (Machine.start plain state) (upToAddition state batch ++ afterAddition batch) last ∧
      Performs .services .serviceEvent (.applied web) stocked during added (upToAddition state batch) ∧
      Performs .resync .listServices (.ok batch) added busy
        (effect (answerApart counted) added (Pass.services plain .sync batch)).2 (upToAddition state batch ++ afterAddition batch) := by
  obtain ⟨last, steps⟩ := addition_overtakes [] batch web drifted
  have idle : ∀ deed ∈ addingDeeds (answerApart counted) plain stocked web, deed.who ≠ .resync := by decide +kernel
  exact ⟨last, _, _, steps, adding_performs .., sync_performs _ plain state added [] batch idle⟩

theorem resync_spares_only_listed_web : ∃ first second last during busy ended,
    Steps (answerApart counted) Drifting (Machine.start plain stocked) (first ++ second) last ∧
      AllGranted (answerApart counted) (first ++ second) ∧
      Performs .services .serviceEvent (.applied web) stocked during added first ∧
      Performs .resync .listServices (.ok stocked.1.services) added busy ended (first ++ second) ∧
      ServiceFate plain Apart.text Apart.held web stocked.1.services stocked added added ended := by
  obtain ⟨last, during, busy, steps, adds, syncs⟩ := addition_seen stocked [web] (by decide +kernel)
  have located : plain.location = some ⟨"metallb-system", "config"⟩ := rfl
  have grants : AllGranted (answerApart counted) (upToAddition stocked [web] ++ afterAddition [web]) := by decide +kernel
  have fates := resync_spares_only_listed (lawful_apart counted "config") located (fun _ _ same => same) stocked _ _ last steps grants
  exact ⟨_, _, last, during, busy, _, steps, grants, adds, syncs, fates.2 _ _ _ _ _ _ _ _ adds syncs⟩

/-- The resync lists the services while there are none. What is then reserved and mapped for the one that
comes is gone in the end, though the service is still there. -/
theorem resync_forgets_unlisted : ∃ first second last listed during busy ended,
    Steps (answerApart counted) Drifting (Machine.start plain bare) (first ++ second) last ∧
      AllGranted (answerApart counted) (first ++ second) ∧
      ⟨.resync, listed, .heard .listServices (.ok listed.1.services)⟩ ∈ first ∧
      Performs .services .serviceEvent (.applied web) stocked during added first ∧
      Performs .resync .listServices (.ok listed.1.services) added busy ended (first ++ second) ∧
      ended.1.services.map (·.identity?) = [web.identity?] ∧
      (∃ reservation ∈ added.held, reservation ∉ ended.held) ∧ Mapped added.text "10.0.0.0/32" ∧ ¬ Mapped ended.text "10.0.0.0/32" := by
  have none : (effect (answerApart counted) bare (Pass.nodes plain .sync [])).2.1.services = [] :=
    List.eq_nil_of_length_eq_zero (by decide +kernel)
  have drifted : Drifting (effect (answerApart counted) bare (Pass.nodes plain .sync [])).2 stocked := by decide +kernel
  obtain ⟨last, during, busy, steps, adds, syncs⟩ := addition_seen bare [] drifted
  have grants : AllGranted (answerApart counted) (upToAddition bare [] ++ afterAddition []) := by decide +kernel
  refine ⟨_, _, last, (effect (answerApart counted) bare (Pass.nodes plain .sync [])).2, during, busy,
    (effect (answerApart counted) added (Pass.services plain .sync [])).2, steps, grants, ?_, adds, ?_, ?_, ?_, ?_, ?_⟩
  · rw [none]
    simp [upToAddition, listingDeeds]
  · rw [none]
    exact syncs
  all_goals decide +kernel

end

end PeerPool.Proofs.Overtaking
