import PeerPool.Config.Basic
import PeerPool.Proofs.Distinct
import PeerPool.Provider.Client

/-! Lists put together value by value, where a value that is there already is left out. What comes of one has each value
once, in the order in which the values are first met. -/

namespace PeerPool.Proofs.FirstOccurrences
open Distinct Provider

section

variable {α : Type} [BEq α] [LawfulBEq α]

/-- The values of a list, each once, and those that occur sooner before those that occur later. -/
structure Firsts (values firsts : List α) : Prop where
  once : firsts.Nodup
  same : ∀ value, value ∈ firsts ↔ value ∈ values
  ordered : firsts.Pairwise fun earlier later => values.idxOf earlier < values.idxOf later

/-- A value behind all others changes no place where one of them first occurs, and first occurs there itself if it is new. -/
theorem Firsts.concat {values firsts : List α} (known : Firsts values firsts) (value : α) :
    Firsts (values ++ [value]) (if value ∈ values then firsts else firsts ++ [value]) := by
  obtain ⟨once, same, ordered⟩ := known
  have kept : firsts.Pairwise fun earlier later => (values ++ [value]).idxOf earlier < (values ++ [value]).idxOf later := by
    apply ordered.imp_of_mem
    intro earlier later first second before
    rwa [List.idxOf_append_of_mem ((same earlier).mp first), List.idxOf_append_of_mem ((same later).mp second)]
  split
  next repeated =>
    refine ⟨once, ?_, kept⟩
    intro other
    rw [same, List.mem_append, List.mem_singleton]
    constructor
    · exact .inl
    · rintro (member | rfl)
      · exact member
      · exact repeated
  next new =>
    have fresh : value ∉ firsts := mt (same value).mp new
    refine ⟨?_, ?_, ?_⟩
    · refine List.nodup_append.mpr ⟨once, List.nodup_singleton value, ?_⟩
      rintro _ member _ single rfl
      exact fresh (List.mem_singleton.mp single ▸ member)
    · intro other
      rw [List.mem_append, List.mem_append, same]
    · refine List.pairwise_append.mpr ⟨kept, List.pairwise_singleton _ value, ?_⟩
      intro other member last single
      have inside : other ∈ values := (same other).mp member
      have before : values.idxOf other < values.length := List.idxOf_lt_length_iff.mpr inside
      rw [List.mem_singleton.mp single, List.idxOf_append_of_mem inside, List.idxOf_append_of_notMem new]
      omega

theorem firsts_eraseDups (values : List α) : Firsts values values.eraseDups := by
  induction values using List.reverseRecOn with
  | nil => exact ⟨List.nodup_nil, fun _ => Iff.rfl, .nil⟩
  | append_singleton values value ih =>
    rw [eraseDups_concat]
    exact ih.concat value

end

/-- The addresses of a machine's routers are those that its neighbours list, and the nodes of a configuration are those that a
selector of a peer names; each is there once, where it is first found. -/
theorem first_found (neighbors : List (List String)) (config : Config) :
    Firsts neighbors.flatten (peerAddresses neighbors) ∧
    Firsts (config.peers.flatMap fun peer => peer.selectors.filterMap fun selector => selector.labels.get? hostnameLabel)
      config.nodeNames :=
  ⟨firsts_eraseDups _, firsts_eraseDups _⟩

example : peerAddresses [["169.254.255.2", "169.254.255.1"], ["169.254.255.2"], []] = ["169.254.255.2", "169.254.255.1"] := by decide

end PeerPool.Proofs.FirstOccurrences
