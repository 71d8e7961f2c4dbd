/-
# Koisyn.Theory.Exchange — two parties that learn each other's offer in three packets

Each party makes one offer and learns the other's.  A first packet carries the sender's offer; a
second one carries the sender's and echoes the receiver's; a third one only echoes.  Either party may
begin, or both, and may repeat its packets; the network keeps every packet that was ever sent and
delivers any of them, any number of times, in any order, or never.

* `Party.Step`: what a party may do when it is given packets from `arrives`;
* `Agrees p q`: what `p` has learned and said is so of `q`;
* `agree_step`: both directions survive a step of either party;
* `agreed_of_starts`: a party that starts, on a second or a third packet, has learned the other's
  offer, and the other has learned its own.

Offers are of any type, and nothing here says how packets are written.
-/
namespace Koisyn.Theory.Exchange

set_option autoImplicit false

universe u

inductive Packet (α : Type u) where
  | first (mine : α)
  | second (mine yours : α)
  | third (yours : α)

structure Party (α : Type u) where
  offer : Option α := none
  learned : Option α := none
  sent : List (Packet α) := []

variable {α : Type u}

namespace Party

/-- The packet a party repeats: the first one until it has learned something, then the second. -/
def repeated (p : Party α) (mine : α) : Packet α :=
  match p.learned with
  | none => .first mine
  | some theirs => .second mine theirs

/-- One step of a party; the Boolean says whether it starts. -/
inductive Step (arrives : List (Packet α)) (p : Party α) : Bool → Party α → Prop
  | idle : Step arrives p false p
  | connect (mine : α) (fresh : p.offer = none) :
      Step arrives p false { p with offer := some mine, sent := .first mine :: p.sent }
  | answer (mine theirs : α) (fresh : p.offer = none) (arrived : .first theirs ∈ arrives) :
      Step arrives p false ⟨some mine, some theirs, .second mine theirs :: p.sent⟩
  | reply (mine theirs : α) (offered : p.offer = some mine) (arrived : .first theirs ∈ arrives) :
      Step arrives p false ⟨some mine, some theirs, .second mine theirs :: p.sent⟩
  | confirm (mine theirs yours : α) (offered : p.offer = some mine)
      (arrived : .second theirs yours ∈ arrives) :
      Step arrives p true ⟨some mine, some theirs, .third theirs :: p.sent⟩
  | confirmed (yours : α) (offered : p.offer.isSome) (arrived : .third yours ∈ arrives) :
      Step arrives p true p
  | again (mine : α) (offered : p.offer = some mine) :
      Step arrives p false { p with sent := p.repeated mine :: p.sent }

end Party

/-- What a packet says of its sender `p`, and of the other party `q`. -/
def Packet.Truthful (p q : Party α) : Packet α → Prop
  | .first mine => p.offer = some mine
  | .second mine yours => p.offer = some mine ∧ p.learned = some yours
  | .third yours => p.offer.isSome ∧ p.learned = some yours ∧ q.learned = p.offer

/-- What `p` has learned and said is so of `q`. -/
structure Agrees (p q : Party α) : Prop where
  learned : ∀ x, p.learned = some x → q.offer = some x
  unmet : p.offer = none → p.learned = none
  truthful : ∀ packet ∈ p.sent, packet.Truthful p q

theorem agrees_start : Agrees ({} : Party α) {} where
  learned _ learned := by cases learned
  unmet _ := rfl
  truthful _ member := absurd member List.not_mem_nil

/-- What one party knows only grows. -/
structure Grows (p t : Party α) : Prop where
  offer : ∀ x, p.offer = some x → t.offer = some x
  learned : ∀ x, p.learned = some x → t.learned = some x

section Step

variable {p q t : Party α} {starts : Bool}

/-- The offer that an arriving first or second packet carries is the other party's. -/
theorem offer_of_arrived (theirs : Agrees q p) {packet : Packet α} (arrived : packet ∈ q.sent)
    {x : α} (carries : packet = .first x ∨ ∃ y, packet = .second x y) : q.offer = some x := by
  have truthful := theirs.truthful packet arrived
  rcases carries with rfl | ⟨y, rfl⟩
  · exact truthful
  · exact truthful.1

/-- Learning the other's offer again changes nothing. -/
theorem learned_stays (ours : Agrees p q) {x y : α} (learned : p.learned = some x)
    (isOffer : q.offer = some y) : some y = some x :=
  isOffer.symm.trans (ours.learned x learned)

theorem grows_step (ours : Agrees p q) (theirs : Agrees q p)
    (step : p.Step q.sent starts t) : Grows p t := by
  cases step with
  | idle => exact ⟨fun _ => id, fun _ => id⟩
  | connect mine fresh =>
      refine ⟨?_, fun _ => id⟩
      intro x offered
      rw [fresh] at offered
      cases offered
  | answer mine theirOffer fresh arrived =>
      refine ⟨?_, ?_⟩
      · intro x offered
        rw [fresh] at offered
        cases offered
      · intro x learned
        rw [ours.unmet fresh] at learned
        cases learned
  | reply mine theirOffer offered arrived =>
      refine ⟨fun x isOffer => offered.symm.trans isOffer, ?_⟩
      intro x learned
      exact learned_stays ours learned (offer_of_arrived theirs arrived (.inl rfl))
  | confirm mine theirOffer yours offered arrived =>
      refine ⟨fun x isOffer => offered.symm.trans isOffer, ?_⟩
      intro x learned
      exact learned_stays ours learned (offer_of_arrived theirs arrived (.inr ⟨yours, rfl⟩))
  | confirmed => exact ⟨fun _ => id, fun _ => id⟩
  | again => exact ⟨fun _ => id, fun _ => id⟩

/-- A party that starts has learned the other's offer, and the other its own. -/
theorem met_of_starts (theirs : Agrees q p) (step : p.Step q.sent true t) :
    t.offer.isSome ∧ t.learned = q.offer ∧ q.learned = t.offer := by
  cases step with
  | confirm mine theirOffer yours offered arrived =>
      obtain ⟨isOffer, echoed⟩ := theirs.truthful _ arrived
      exact ⟨rfl, isOffer.symm, by rw [echoed, ← theirs.learned yours echoed, offered]⟩
  | confirmed yours offered arrived =>
      obtain ⟨-, echoed, met⟩ := theirs.truthful _ arrived
      exact ⟨offered, met, by rw [echoed, theirs.learned yours echoed]⟩

/-- A packet stays truthful while both parties grow. -/
theorem Packet.Truthful.grows {p' q' : Party α} {packet : Packet α}
    (truthful : packet.Truthful p q) (mine : Grows p p') (yours : Grows q q') :
    packet.Truthful p' q' := by
  cases packet with
  | first x => exact mine.offer x truthful
  | second x y => exact ⟨mine.offer x truthful.1, mine.learned y truthful.2⟩
  | third y =>
      obtain ⟨offered, learned, met⟩ := truthful
      obtain ⟨x, isOffer⟩ := Option.isSome_iff_exists.1 offered
      have offer := mine.offer x isOffer
      exact ⟨by rw [offer]; rfl, mine.learned y learned,
        by rw [offer]; exact yours.learned x (met.trans isOffer)⟩

theorem grows_refl (p : Party α) : Grows p p := ⟨fun _ => id, fun _ => id⟩

/-- A step sends truthful packets only. -/
theorem truthful_step (ours : Agrees p q) (theirs : Agrees q p) (step : p.Step q.sent starts t) :
    ∀ packet ∈ t.sent, packet.Truthful t q := by
  have grows := grows_step ours theirs step
  have old : ∀ packet ∈ p.sent, packet.Truthful t q := fun packet member =>
    (ours.truthful packet member).grows grows (grows_refl q)
  cases step with
  | idle => exact old
  | connect mine fresh => exact List.forall_mem_cons.2 ⟨rfl, old⟩
  | answer mine theirOffer fresh arrived => exact List.forall_mem_cons.2 ⟨⟨rfl, rfl⟩, old⟩
  | reply mine theirOffer offered arrived => exact List.forall_mem_cons.2 ⟨⟨rfl, rfl⟩, old⟩
  | confirm mine theirOffer yours offered arrived =>
      have met := met_of_starts theirs (.confirm mine theirOffer yours offered arrived)
      exact List.forall_mem_cons.2 ⟨⟨rfl, rfl, met.2.2⟩, old⟩
  | confirmed => exact old
  | again mine offered =>
      refine List.forall_mem_cons.2 ⟨?_, old⟩
      unfold Party.repeated
      split
      · exact offered
      · rename_i theirOffer learned
        exact ⟨offered, learned⟩

/-- **A step keeps both parties truthful.** -/
theorem agree_step (ours : Agrees p q) (theirs : Agrees q p) (step : p.Step q.sent starts t) :
    Agrees t q ∧ Agrees q t := by
  have grows := grows_step ours theirs step
  refine ⟨⟨?_, ?_, truthful_step ours theirs step⟩,
    ⟨fun x learned => grows.offer x (theirs.learned x learned), theirs.unmet,
      fun packet member => (theirs.truthful packet member).grows (grows_refl q) grows⟩⟩
  · intro x learned
    cases step with
    | idle => exact ours.learned x learned
    | connect => exact ours.learned x learned
    | answer _ _ _ arrived => exact learned ▸ offer_of_arrived theirs arrived (.inl rfl)
    | reply _ _ _ arrived => exact learned ▸ offer_of_arrived theirs arrived (.inl rfl)
    | confirm _ _ yours _ arrived =>
        exact learned ▸ offer_of_arrived theirs arrived (.inr ⟨yours, rfl⟩)
    | confirmed => exact ours.learned x learned
    | again => exact ours.learned x learned
  · intro unmet
    cases step with
    | idle => exact ours.unmet unmet
    | connect => cases unmet
    | answer => cases unmet
    | reply => cases unmet
    | confirm => cases unmet
    | confirmed => exact ours.unmet unmet
    | again => exact ours.unmet unmet

/-- **What a start means.**  The party has learned the other's offer, and the other its own. -/
theorem agreed_of_starts (theirs : Agrees q p) (step : p.Step q.sent true t) :
    ∃ mine yours, t.offer = some mine ∧ t.learned = some yours ∧
      q.offer = some yours ∧ q.learned = some mine := by
  obtain ⟨offered, learned, met⟩ := met_of_starts theirs step
  obtain ⟨mine, isOffer⟩ := Option.isSome_iff_exists.1 offered
  rw [isOffer] at met
  cases known : q.offer with
  | none =>
      rw [theirs.unmet known] at met
      cases met
  | some yours => exact ⟨mine, yours, isOffer, by rw [learned, known], rfl, met⟩

end Step

end Koisyn.Theory.Exchange
