import PeerPool.Proofs.WrittenOnce

/-! Edits of a configuration that has other parts than the edit looks at. An edit for nodes goes by
the peers and an edit for services by the pools, so the same edit of a configuration with that part
grafted onto another one has the same result, grafted in the same way, and logs and asks the same. -/

namespace PeerPool.Proofs.GraftedEdits
open PassServices PeerEdits PoolEdits WrittenOnce Provider Cluster

/-- The peers of one configuration and the rest of another. -/
def graftPeers (other config : Config) : Config := { other with peers := config.peers }

/-- The pools of one configuration and the rest of another. -/
def graftPools (other config : Config) : Config := { other with pools := config.pools }

section

variable {config peered pooled : Config}

theorem graftPools_own (own : peered = graftPeers config peered) : graftPools peered config = peered := by
  rw [own]
  rfl

theorem graftPeers_own (own : pooled = graftPools config pooled) : graftPeers pooled config = pooled := by
  rw [own]
  rfl

theorem sameBesidesPeers (own : peered = graftPeers config peered) : SameBesidesPeers config peered := by
  rw [own]
  exact ⟨rfl, rfl⟩

theorem sameBesidesPools (own : pooled = graftPools config pooled) : SameBesidesPools config pooled := by
  rw [own]
  exact ⟨rfl, rfl⟩

theorem grafts_agree (peers : peered = graftPeers config peered) (pools : pooled = graftPools config pooled) :
    graftPools peered pooled = graftPeers pooled peered := by
  rw [peers, pools]
  rfl

end

def carry (graft : Config → Config) (edited : Edited) : Edited := ⟨graft edited.config, edited.changed⟩

theorem map_logged {α β : Type} (f : α → β) (condition : Prop) [Decidable condition] (log : Pass Unit) (rest : Pass α) :
    (f <$> if condition then log >>= fun _ => rest else rest) = if condition then log >>= fun _ => f <$> rest else f <$> rest := by
  split
  · rw [map_bind]
  · rfl

section

variable (other : Config)

theorem addPeer_grafted (config : Config) (peer : Peer) :
    (graftPeers other config).addPeer peer = carry (graftPeers other) (config.addPeer peer) := by
  change (if config.hasPeer peer.address peer.selectors then _ else _) = carry _ (if config.hasPeer peer.address peer.selectors then _ else _)
  split <;> rfl

theorem removeNodes_grafted (edited : Edited) (nodes : List Node) :
    Pass.removeNodes (carry (graftPeers other) edited) nodes = carry (graftPeers other) <$> Pass.removeNodes edited nodes := by
  induction nodes generalizing edited with
  | nil => rfl
  | cons node rest ih =>
    simp only [Pass.removeNodes, map_bind, map_logged, ← ih]
    rfl

theorem addPeers_grafted (settings : Settings) (node : String) (edited : Edited) (addresses : List String) :
    Pass.addPeers settings node (carry (graftPeers other) edited) addresses =
      carry (graftPeers other) <$> Pass.addPeers settings node edited addresses := by
  induction addresses generalizing edited with
  | nil => rfl
  | cons address rest ih =>
    have step : (carry (graftPeers other) edited).config.addPeer (settings.peerOf node address) =
        carry (graftPeers other) (edited.config.addPeer (settings.peerOf node address)) := addPeer_grafted ..
    simp only [Pass.addPeers, map_logged, ← ih, step]
    rfl

theorem addNodes_grafted (settings : Settings) (edited : Edited) (nodes : List PeeringNode) :
    Pass.addNodes settings (carry (graftPeers other) edited) nodes = carry (graftPeers other) <$> Pass.addNodes settings edited nodes := by
  induction nodes generalizing edited with
  | nil => rfl
  | cons node rest ih =>
    simp only [Pass.addNodes, map_bind]
    congr 1
    funext reply
    split
    · simp only [map_bind, ← ih]
    · simp only [map_bind, addPeers_grafted, ← ih, bind_map_left]
    · simp only [map_bind, ← ih]

theorem syncNodes_grafted (settings : Settings) (config : Config) (nodes : List PeeringNode) :
    Pass.syncNodes settings (graftPeers other config) nodes = carry (graftPeers other) <$> Pass.syncNodes settings config nodes := by
  simp only [Pass.syncNodes, map_logged, ← addNodes_grafted]
  rfl

theorem editForNodes_grafted (settings : Settings) (mode : Mode) (config : Config) (batch : List Node) :
    Pass.editForNodes settings mode (graftPeers other config) batch =
      carry (graftPeers other) <$> Pass.editForNodes settings mode config batch := by
  cases mode with
  | remove => exact removeNodes_grafted other ⟨config, false⟩ batch
  | add =>
    simp only [Pass.editForNodes, map_bind, ← addNodes_grafted]
    rfl
  | sync => simp only [Pass.editForNodes, map_bind, syncNodes_grafted]

theorem addPool_grafted (config : Config) (pool : AddressPool) :
    (graftPools other config).addPool pool = carry (graftPools other) (config.addPool pool) := by
  change (if pool.addresses.isEmpty || pool.addresses.any config.mapsAddress then _ else _) =
    carry _ (if pool.addresses.isEmpty || pool.addresses.any config.mapsAddress then _ else _)
  split <;> rfl

theorem mapAddress_grafted (identity : Identity) (cidr : String) (config : Config) :
    Pass.mapAddress identity cidr (graftPools other config) = graftPools other <$> Pass.mapAddress identity cidr config := by
  simp only [Pass.mapAddress, addPool_grafted]
  split <;> rename_i changed <;> simp only [carry] at changed ⊢ <;> simp [changed]

def carryAdded (graft : Config → Config) (added : Pass.Added) : Pass.Added := ⟨added.cidr, added.config.map graft⟩

theorem addService_grafted (settings : Settings) (listed : List Reservation) (config? : Option Config) (service : Service) :
    Pass.addService settings listed (config?.map (graftPools other)) service =
      carryAdded (graftPools other) <$> Pass.addService settings listed config? service := by
  simp only [addService_eq, map_bind]
  congr 1
  funext identity
  congr 1
  funext cidr?
  cases cidr? with
  | none => rfl
  | some cidr =>
    cases config? with
    | none => rfl
    | some config =>
      simp only [mapGiven, Option.map_some, mapAddress_grafted, map_bind, bind_map_left]
      rfl

theorem addServices_grafted (settings : Settings) (listed : List Reservation) (config? : Option Config) (services : List Service) :
    Pass.addServices settings listed (config?.map (graftPools other)) services =
      Prod.map id (Option.map (graftPools other)) <$> Pass.addServices settings listed config? services := by
  induction services generalizing config? with
  | nil => rfl
  | cons service rest ih =>
    simp only [Pass.addServices, addService_grafted, bind_map_left, map_bind]
    congr 1
    funext added
    simp only [carryAdded, ih, bind_map_left]
    rfl

theorem removeServices_grafted (settings : Settings) (listed : List Reservation) (config? : Option Config) (services : List Service) :
    Pass.removeServices settings listed (config?.map (graftPools other)) services =
      Option.map (graftPools other) <$> Pass.removeServices settings listed config? services := by
  induction services generalizing config? with
  | nil => rfl
  | cons service rest ih =>
    simp only [Pass.removeServices, map_bind]
    congr 1
    funext identity
    split
    · simp only [map_bind, ih]
    next reservation _ =>
      simp only [map_bind]
      congr 1
      funext reply
      split
      · simp only [map_bind, ih]
      · have removed : (config?.map (graftPools other)).map (fun config => (config.removeAddress reservation.cidr).config) =
            (config?.map fun config => (config.removeAddress reservation.cidr).config).map (graftPools other) := by
          cases config? <;> rfl
        simp only [map_bind, removed, ih]

theorem unmapStale_grafted (valid : List String) (config : Config) (addresses : List String) :
    Pass.unmapStale valid (graftPools other config) addresses = graftPools other <$> Pass.unmapStale valid config addresses := by
  induction addresses generalizing config with
  | nil => rfl
  | cons address rest ih =>
    simp only [Pass.unmapStale]
    split
    · exact ih config
    · rw [map_bind]
      congr 1
      funext _
      exact ih (config.removeAddress address).config

theorem withoutStale_grafted (valid : List String) (config? : Option Config) :
    withoutStale valid (config?.map (graftPools other)) = Option.map (graftPools other) <$> withoutStale valid config? := by
  cases config? with
  | none => rfl
  | some config =>
    have stale := unmapStale_grafted other valid config config.poolAddresses
    change some <$> Pass.unmapStale valid (graftPools other config) config.poolAddresses = _
    rw [stale]
    simp only [withoutStale, Functor.map_map]
    rfl

theorem editForServices_grafted (settings : Settings) (mode : Mode) (listed : List Reservation) (config? : Option Config)
    (services : List Service) :
    editForServices settings mode listed (config?.map (graftPools other)) services =
      Prod.map (Option.map (graftPools other)) id <$> editForServices settings mode listed config? services := by
  cases mode with
  | add =>
    simp only [editForServices, addServices_grafted, bind_map_left, map_bind]
    rfl
  | remove =>
    simp only [editForServices, removeServices_grafted, bind_map_left, map_bind]
    rfl
  | sync =>
    simp only [editForServices, addServices_grafted, bind_map_left, map_bind, Prod.map_fst, Prod.map_snd, withoutStale_grafted]
    rfl

end

end PeerPool.Proofs.GraftedEdits
