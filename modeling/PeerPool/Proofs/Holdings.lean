import PeerPool.Proofs.PassCalls
import PeerPool.Proofs.Sites

/-! What a pass may rely on about the reservations that the provider holds, as long as none
are made and none deleted. -/

namespace PeerPool.Proofs.Holdings
open PassLogic PassCalls Sites Provider

variable {σ : Type} {answer : Answers σ} {reservations : σ → List Reservation} {settings : Settings}

/-- Listings show what is held, and only calls that make or delete reservations change it. -/
structure Holds (answer : Answers σ) (reservations : σ → List Reservation) : Prop where
  lists : ∀ state project listed,
    (answer state (.listReservations project)).1 = .ok listed → listed = reservations state
  keeps : ∀ state call, kind call ≠ .create → kind call ≠ .delete → reservations (answer state call).2 = reservations state

theorem holds_site (offers : Nat → Offer) : Holds (Site.answer offers) Site.reservations where
  lists state project listed answered := (Except.ok.inj answered).symm
  keeps state call creates deletes := by
    cases call with
    | createReservation project request => exact absurd rfl creates
    | deleteReservation id => exact absurd rfl deletes
    | updateService service =>
      simp only [Site.answer, Site.update]
      split <;> rfl
    | _ => rfl

variable (holds : Holds answer reservations)
include holds

theorem Holds.frame {α : Type} {pass : Pass α} {kinds : List Kind} {state after : σ} {result : Except PassError α}
    (ran : effect answer state pass = (result, after)) (makes : Makes kinds pass) (creates : .create ∉ kinds)
    (deletes : .delete ∉ kinds) : reservations after = reservations state := by
  apply Makes.frame ran makes reservations
  intro between call known
  apply holds.keeps
  · intro same
    exact creates (same ▸ known)
  · intro same
    exact deletes (same ▸ known)

theorem Holds.listing {state after : σ} {result : Except PassError (List Reservation)}
    (ran : effect answer state (Pass.listReservations settings) = (result, after)) :
    reservations after = reservations state := by
  have lists : Makes [.list] (Pass.listReservations settings) := makes_listReservations settings (by decide)
  exact holds.frame ran lists (by decide) (by decide)

theorem Holds.listed {state after : σ} {current : List Reservation}
    (ok : effect answer state (Pass.listReservations settings) = (.ok current, after)) : current = reservations state := by
  unfold Pass.listReservations at ok
  rw [effect_ask_bind, effect_check] at ok
  obtain ⟨result, _⟩ := Prod.mk.inj ok
  exact holds.lists state settings.projectId current (mapError_ok.mp result)

end PeerPool.Proofs.Holdings
