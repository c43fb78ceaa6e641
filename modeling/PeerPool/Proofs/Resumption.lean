import PeerPool.Proofs.Interruptions
import PeerPool.Proofs.SiteEffects

/-! A pass that a failing call cut short is made good by another one over the services as
they are stored by then. Services that were told their addresses come out with the same
text, the one whose address was reserved but not told gets the reservation that is there,
and for the others everything is as it would have been. -/

namespace PeerPool.Proofs.Resumption
open PassLogic PassServices PassPools Sites SiteEffects Interruptions Simulation Provider Cluster

variable {settings : Settings} {offers : Nat → Offer} {listed : List Reservation}

/-- Of a listing, adding services looks only for what is reserved for them. -/
theorem addServices_congr {relisted : List Reservation} {services : List Service}
    (agree : ∀ service ∈ services, ∀ identity ∈ service.identity?,
      Pass.owned? settings identity relisted = Pass.owned? settings identity listed) (config? : Option Config) :
    Pass.addServices settings relisted config? services = Pass.addServices settings listed config? services := by
  induction services generalizing config? with
  | nil => rfl
  | cons service rest ih =>
    have first : Pass.addService settings relisted config? service = Pass.addService settings listed config? service := by
      rw [addService_eq, addService_eq, Pass.identityOf]
      cases known : service.identity? with
      | none => rfl
      | some identity =>
        have same := agree service (List.mem_cons_self ..) identity known
        simp only [pure_bind, addressOf_eq, reservationFor, same]
    have others (config? : Option Config) := ih (fun other member => agree other (List.mem_cons_of_mem _ member)) config?
    simp only [Pass.addServices, first, others]

theorem effect_addServices {config? : Option Config} {service : Service} {rest : List Service} {site between : Site}
    {added : Pass.Added}
    (first : effect (Site.answer offers) site (Pass.addService settings listed config? service) = (.ok added, between)) :
    effect (Site.answer offers) site (Pass.addServices settings listed config? (service :: rest)) =
      effect (Site.answer offers) between (Pass.addServices settings listed added.config rest >>= fun later =>
        pure (added.cidr.toList ++ later.1, later.2)) := by
  rw [Pass.addServices, effect_bind, first]

/-- What is known of a site while these services are still to be added. -/
structure Ready (settings : Settings) (listed : List Reservation) (site : Site) (services : List Service) : Prop where
  stored : ∀ service ∈ services, service ∈ site.services
  apart : (services.map storedAs).Nodup
  tags : (tagsOf services).Nodup
  agree : ∀ service ∈ services, ∀ identity ∈ service.identity?,
    Pass.owned? settings identity site.reservations = Pass.owned? settings identity listed

/-- What a halted site is to the site that the adding of services began at. -/
structure Resumes (settings : Settings) (offers : Nat → Offer) (listed : List Reservation) (site : Site)
    (config? : Option Config) (services : List Service) (halted : Site) (change : Service → Service) : Prop where
  faithful : Faithful change
  stored : halted.services = site.services.map change
  document : halted.document = site.document
  others : ∀ service, storedAs service ∉ services.map storedAs → change service = service
  owned : ∀ identity : Identity, identity.tag ∉ tagsOf services →
    Pass.owned? settings identity halted.reservations = Pass.owned? settings identity site.reservations
  reruns : ∀ relisted, (∀ service ∈ services, ∀ identity ∈ service.identity?,
      Pass.owned? settings identity relisted = Pass.owned? settings identity halted.reservations) →
    effect (Site.answer offers) halted (Pass.addServices settings relisted config? (services.map change)) =
      effect (Site.answer offers) site (Pass.addServices settings listed config? services)

theorem ready_site (settings : Settings) {site : Site} (distinct : Distinct site.services) :
    Ready settings site.reservations site (site.services.filter (·.isLoadBalancer)) := by
  refine ⟨fun service member => List.mem_of_mem_filter member, ?_, distinct, fun _ _ _ _ => rfl⟩
  exact site.keys.sublist (List.filter_sublist.map _)

section

variable {site : Site} {service : Service} {rest : List Service} {identity : Identity}
  (ready : Ready settings listed site (service :: rest)) (known : service.identity? = some identity)
include ready known

theorem Ready.absent : identity.tag ∉ tagsOf rest := by
  have tags := ready.tags
  rw [tagsOf_cons known] at tags
  exact (List.nodup_cons.mp tags).1

theorem Ready.differs {other : Service} (member : other ∈ rest) : storedAs other ≠ identity := by
  have apart := ready.apart
  rw [List.map_cons] at apart
  intro same
  rw [storedAs_identity known] at apart
  exact (List.nodup_cons.mp apart).1 (List.mem_map.mpr ⟨other, member, same⟩)

theorem Ready.next (free : ∀ identity : Identity, identity.tag ≠ settings.providerTag) {cidr : String}
    {change : Service → Service} {after : Site}
    (covers : Covers settings offers listed identity service site cidr change after) : Ready settings listed after rest := by
  have absent := ready.absent known
  constructor
  · intro other member
    rw [covers.services, ← covers.others (ready.differs known member)]
    exact List.mem_map_of_mem (ready.stored other (List.mem_cons_of_mem _ member))
  · have apart := ready.apart
    rw [List.map_cons] at apart
    exact (List.nodup_cons.mp apart).2
  · have tags := ready.tags
    rw [tagsOf_cons known] at tags
    exact (List.nodup_cons.mp tags).2
  · intro other member otherIdentity otherKnown
    have differs : otherIdentity.tag ≠ identity.tag := by
      intro same
      exact absent (same ▸ mem_tagsOf member otherKnown)
    rw [covers.owned_other (free otherIdentity) differs]
    exact ready.agree other (List.mem_cons_of_mem _ member) otherIdentity otherKnown

/-- The changes do not get in each other's way, for each is to a service of its own. -/
theorem Ready.changed {cidr : String} {first later : Service → Service} {after : Site}
    (covers : Covers settings offers listed identity service site cidr first after)
    (others : ∀ service, storedAs service ∉ rest.map storedAs → later service = service) :
    (service :: rest).map (later ∘ first) = first service :: rest.map later := by
  have kept : storedAs (first service) ∉ rest.map storedAs := by
    rw [covers.faithful.key]
    intro member
    obtain ⟨other, member, same⟩ := List.mem_map.mp member
    exact ready.differs known member (same.trans (storedAs_identity known))
  rw [List.map_cons, Function.comp_apply, others _ kept]
  congr 1
  apply List.map_congr_left
  intro other member
  rw [Function.comp_apply, covers.others (ready.differs known member)]

end

/-- Where nothing has changed, the listing is as good as the one before. -/
theorem resumes_here {site : Site} {config? : Option Config} {services : List Service}
    (ready : Ready settings listed site services) : Resumes settings offers listed site config? services site id := by
  refine ⟨.same, (List.map_id _).symm, rfl, fun _ _ => rfl, fun _ _ => rfl, ?_⟩
  intro relisted agree
  rw [List.map_id]
  congr 1
  apply addServices_congr
  intro service member identity known
  exact (agree service member identity known).trans (ready.agree service member identity known)

/-- The address that was reserved but not told is found when the reservations are listed again. -/
theorem resumes_untold (free : ∀ identity : Identity, identity.tag ≠ settings.providerTag) {site : Site}
    {config? : Option Config} {service : Service} {rest : List Service} {identity : Identity}
    (ready : Ready settings listed site (service :: rest)) (known : service.identity? = some identity)
    (unassigned : service.assignedAddress? = none) (unowned : Pass.owned? settings identity listed = none) :
    Resumes settings offers listed site config? (service :: rest)
      (site.create offers [settings.providerTag, identity.tag]) id := by
  have first : service ∈ service :: rest := List.mem_cons_self ..
  have none := (ready.agree service first identity known).trans unowned
  have created := owned_create_self offers none
  refine ⟨.same, (List.map_id _).symm, rfl, fun _ _ => rfl, ?_, ?_⟩
  · intro other absent
    rw [tagsOf_cons known, List.mem_cons, not_or] at absent
    exact owned_create_other (free other) absent.1 site
  · intro relisted agree
    have found := (agree service first identity known).trans created
    obtain ⟨_, _, _, covers, ran⟩ :=
      covers_addService settings offers listed site config? (ready.stored service first) known
    obtain ⟨_, _, _, recovers, reran⟩ := covers_addService settings offers relisted
      (site.create offers [settings.providerTag, identity.tag]) config? (ready.stored service first) known
    -- Where nothing failed, the service is told what was reserved for it at once; here it is
    -- told the same because it owns that by now.
    cases covers with
    | known assigned => cases unassigned.symm.trans assigned
    | reused _ owned => cases unowned.symm.trans owned
    | reserved _ _ made =>
    cases recovers with
    | known assigned => cases unassigned.symm.trans assigned
    | reserved _ lost => cases found.symm.trans lost
    | reused _ owned =>
    have same := Option.some.inj (found.symm.trans owned)
    subst made
    subst same
    rw [List.map_id, effect_addServices ran, effect_addServices reran]
    have others : ∀ other ∈ rest, ∀ otherIdentity ∈ other.identity?,
        Pass.owned? settings otherIdentity relisted = Pass.owned? settings otherIdentity listed := by
      intro other member otherIdentity otherKnown
      have differs : otherIdentity.tag ≠ identity.tag := by
        intro same
        exact ready.absent known (same ▸ mem_tagsOf member otherKnown)
      rw [agree other (List.mem_cons_of_mem _ member) otherIdentity otherKnown, owned_create_other (free _) differs]
      exact ready.agree other (List.mem_cons_of_mem _ member) otherIdentity otherKnown
    rw [addServices_congr others]

theorem resumes_later (free : ∀ identity : Identity, identity.tag ≠ settings.providerTag) {site between halted : Site}
    {config? : Option Config} {service : Service} {rest : List Service} {identity : Identity} {cidr : String}
    {first later : Service → Service} (ready : Ready settings listed site (service :: rest))
    (known : service.identity? = some identity)
    (covers : Covers settings offers listed identity service site cidr first between)
    (ran : effect (Site.answer offers) site (Pass.addService settings listed config? service) =
      (.ok ⟨some cidr, mapped identity (some cidr) config?⟩, between))
    (resumes : Resumes settings offers listed between (mapped identity (some cidr) config?) rest halted later) :
    Resumes settings offers listed site config? (service :: rest) halted (later ∘ first) := by
  have key := storedAs_identity known
  have absent := ready.absent known
  constructor
  · exact covers.faithful.comp resumes.faithful
  · rw [resumes.stored, covers.services, List.map_map]
  · exact resumes.document.trans covers.document
  · intro other missing
    rw [List.map_cons, List.mem_cons, not_or, key] at missing
    rw [Function.comp_apply, covers.others missing.1, resumes.others other missing.2]
  · intro other missing
    rw [tagsOf_cons known, List.mem_cons, not_or] at missing
    exact (resumes.owned other missing.2).trans (covers.owned_other (free other) missing.1)
  · intro relisted agree
    have changed := ready.changed known covers resumes.others
    have same := ready.agree service (List.mem_cons_self ..) identity known
    have found := (agree service (List.mem_cons_self ..) identity known).trans (resumes.owned identity absent)
    have again := covers.again same known found config? halted
    rw [changed, effect_addServices ran, effect_addServices again]
    apply effect_bind_congr
    apply resumes.reruns
    intro other member
    exact agree other (List.mem_cons_of_mem _ member)

/-- Wherever the adding of services stops, it can be taken up again. -/
theorem stopped_resumes (free : ∀ identity : Identity, identity.tag ≠ settings.providerTag) {site halted : Site}
    {config? : Option Config} {services : List Service} (stopped : Stopped settings offers listed site config? services halted)
    (ready : Ready settings listed site services) :
    ∃ change, Resumes settings offers listed site config? services halted change := by
  induction stopped with
  | here => exact ⟨id, resumes_here ready⟩
  | untold known unassigned unowned => exact ⟨id, resumes_untold free ready known unassigned unowned⟩
  | @later site between halted config? service rest added ran stopped ih =>
    cases known : service.identity? with
    | none =>
      rw [addService_eq, Pass.identityOf, known] at ran
      cases ran
    | some identity =>
      obtain ⟨cidr, first, after, covers, covered⟩ :=
        covers_addService settings offers listed site config? (ready.stored service (List.mem_cons_self ..)) known
      cases ran.symm.trans covered
      obtain ⟨later, resumes⟩ := ih (ready.next known free covers)
      exact ⟨later ∘ first, resumes_later free ready known covers covered resumes⟩

/-- Loading depends on nothing but the document, and changes nothing. -/
theorem effect_loadGiven {site halted : Site} (same : halted.document = site.document) :
    effect (Site.answer offers) halted (loadGiven settings) =
      ((effect (Site.answer offers) site (loadGiven settings)).1, halted) := by
  unfold loadGiven
  cases settings.location with
  | none => rfl
  | some location =>
    have load (other : Site) : Site.answer offers other (.loadDocument location.name) = (other.load location.name, other) := rfl
    have found : halted.load location.name = site.load location.name := by rw [Site.load, Site.load, same]
    simp only [map_eq_pure_bind, effect_bind, PassDocument.effect_load, load, found]
    generalize ((site.load location.name).mapError PassError.documentStore >>= fun text =>
      (Config.read text).mapError PassError.invalidDocument) = read
    cases read <;> rfl

theorem faces_services (refusal : Refusal) {mode : Mode} (adds : mode ≠ .remove) (site : Site) (services : List Service) :
    Faces offers refusal site
      (Pass.listReservations settings >>= fun listed => loadGiven settings >>= fun loaded =>
        perform settings mode listed loaded services)
      fun halted => halted = site ∨ ∃ loaded, effect (Site.answer offers) site (loadGiven settings) = (.ok loaded, site) ∧
        Stopped settings offers site.reservations site loaded services halted := by
  refine ((faces_listReservations settings site).mono fun after => .inl).bind ?_
  intro listed _ lists
  cases lists
  refine ((faces_loadGiven settings site).mono fun after => .inl).bind ?_
  intro loaded after loads
  have unchanged := congrArg Prod.snd (loads.symm.trans (effect_loadGiven rfl))
  cases unchanged
  apply (faces_perform settings site.reservations adds _ loaded services).mono
  intro halted stopped
  exact .inr ⟨loaded, loads, stopped⟩

theorem perform_resumes {mode : Mode} (adds : mode ≠ .remove) {site halted : Site} {loaded : Option Config}
    {services : List Service} {change : Service → Service}
    (resumes : Resumes settings offers listed site loaded services halted change) :
    effect (Site.answer offers) halted (perform settings mode halted.reservations loaded (services.map change)) =
      effect (Site.answer offers) site (perform settings mode listed loaded services) := by
  have reruns := resumes.reruns halted.reservations fun _ _ _ _ => rfl
  cases mode with
  | remove => exact absurd rfl adds
  | add => exact effect_bind_congr _ reruns _
  | sync =>
    have tags := resumes.faithful.tags services
    have cleans : cleanUp settings loaded (services.map change) = cleanUp settings loaded services := by
      funext added
      simp only [cleanUp, tags]
    rw [perform, perform, syncServices_eq, syncServices_eq, cleans]
    exact effect_bind_congr _ reruns _

/-- Over the services as they are stored where a pass was cut short, the same kind of pass
comes to what one pass comes to that nothing cuts short: to the same result, and to the same
configuration, reservations and services. -/
theorem rerun_completes (offers : Nat → Offer) (settings : Settings)
    (free : ∀ identity : Identity, identity.tag ≠ settings.providerTag) {mode : Mode} (adds : mode ≠ .remove) (site : Site)
    (distinct : Distinct site.services) (refusal : Refusal) (n : Nat)
    {result : Except PassError Unit} {halted : Site}
    (stopped : effect (Fused.answer offers refusal) ⟨site, some n⟩ (Pass.services settings mode site.services) =
      (result, ⟨halted, none⟩)) :
    effect (Site.answer offers) halted (Pass.services settings mode halted.services) =
      effect (Site.answer offers) site (Pass.services settings mode site.services) := by
  rw [effect_services] at stopped
  rw [effect_services, effect_services]
  -- Either nothing was done yet, or the pass had loaded the configuration and was adding services.
  obtain ⟨_, rfl | ⟨loaded, loads, stopped⟩⟩ := (faces_services refusal adds site _).halts n result halted stopped
  · rfl
  have ready := ready_site settings distinct
  obtain ⟨change, resumes⟩ := stopped_resumes free stopped ready
  have chosen : halted.services.filter (·.isLoadBalancer) = (site.services.filter (·.isLoadBalancer)).map change := by
    rw [resumes.stored, resumes.faithful.balancers]
  have reloads : effect (Site.answer offers) halted (loadGiven settings) = (.ok loaded, halted) := by
    rw [effect_loadGiven resumes.document, loads]
  have lists (other : Site) : effect (Site.answer offers) other (Pass.listReservations settings) =
      (.ok other.reservations, other) := rfl
  rw [chosen, effect_bind, effect_bind, lists, lists]
  simp only
  rw [effect_bind, effect_bind, loads, reloads]
  exact perform_resumes adds resumes

/-- The pass stops after an address was reserved, and before the service is told. -/
theorem rerun_completes_web :
    let refusal : Refusal := ⟨.unreachable, .failed none⟩
    let site : Site := { document := some ({} : Config).write, services := [web] }
    ∃ result halted, effect (Fused.answer counted refusal) ⟨site, some 3⟩ (Pass.services plain .sync site.services) =
        (result, ⟨halted, none⟩) ∧
      effect (Site.answer counted) halted (Pass.services plain .sync halted.services) =
        effect (Site.answer counted) site (Pass.services plain .sync site.services) := by
  intro refusal site
  have blown : (effect (Fused.answer counted refusal) ⟨site, some 3⟩ (Pass.services plain .sync site.services)).2.left = none := by
    decide +kernel
  generalize ran : effect (Fused.answer counted refusal) ⟨site, some 3⟩ (Pass.services plain .sync site.services) = run at blown
  obtain ⟨result, ⟨halted, left⟩⟩ := run
  cases blown
  refine ⟨result, halted, rfl, ?_⟩
  exact rerun_completes counted plain (tag_ne (by decide)) (by decide) site (distinct_single web) refusal 3 ran

end PeerPool.Proofs.Resumption
