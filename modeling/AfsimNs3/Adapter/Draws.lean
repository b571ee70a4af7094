import AfsimNs3.Adapter.Gates
import AfsimNs3.Lib.Ctype
import AfsimNs3.Lib.Octets

/-!
# The loss draw (`UnitDraw`, `MessageTransportGate.cpp`)

The draw hashes the source, the target and sixteen octets of the serial and the revision, with nothing between the two
IDs. So what is hashed determines the serial, the revision and the IDs joined, but not where the source ends
(`hashed_eq_iff`): the links from 1 to 12 and from 11 to 2 share every draw. The draw itself is on the grid of
`2 ^ -53` in `[0, 1)` (`unitDraw_grid`), and nothing is dropped at the rate 0 (`decide_of_rate_zero`).
-/

namespace AfsimNs3.Adapter.MessageTransportGate
open Octets

/-- What a draw is made for. -/
structure Draw where
  sourceEntityId : Bytes
  targetEntityId : Bytes
  messageSerial : UInt64
  revision : UInt64
  deriving DecidableEq

namespace Draw

/-- The octets `UnitDraw` feeds into its hash, in order. -/
def hashed (draw : Draw) : Bytes :=
  draw.sourceEntityId ++ draw.targetEntityId ++ interleave draw.messageSerial draw.revision

def unit (draw : Draw) : ℚ :=
  unitDraw draw.sourceEntityId draw.targetEntityId draw.messageSerial draw.revision

end Draw

/-! ## The hash -/

theorem hashText_append (hash : UInt64) (text text' : Bytes) :
    hashText hash (text ++ text') = hashText (hashText hash text) text' := by
  unfold hashText
  rw [List.foldl_append]

theorem hashNumbers_eq (hash serial revision : UInt64) :
    hashNumbers hash serial revision = hashText hash (interleave serial revision) := by
  unfold hashNumbers hashText interleave
  rw [List.foldl_flatMap]
  rfl

/-- The draw is a function of the octets hashed. -/
theorem unit_eq (draw : Draw) :
    draw.unit = ((hashText 1469598103934665603 draw.hashed >>> 11).toNat : ℚ) / 2 ^ 53 := by
  unfold Draw.unit unitDraw Draw.hashed
  rw [hashNumbers_eq, hashText_append, hashText_append]

theorem unit_eq_of_hashed {draw draw' : Draw} (h : draw.hashed = draw'.hashed) : draw.unit = draw'.unit := by
  rw [unit_eq, unit_eq, h]

/-- The last sixteen octets stand for the numbers, all before them for the IDs. -/
theorem hashed_eq_iff (draw draw' : Draw) : draw.hashed = draw'.hashed ↔
    draw.sourceEntityId ++ draw.targetEntityId = draw'.sourceEntityId ++ draw'.targetEntityId ∧
      draw.messageSerial = draw'.messageSerial ∧ draw.revision = draw'.revision := by
  unfold Draw.hashed
  constructor
  · intro h
    have numbers := (interleave_length draw.messageSerial draw.revision).trans
      (interleave_length draw'.messageSerial draw'.revision).symm
    obtain ⟨ids, octets⟩ := List.append_inj' h numbers
    exact ⟨ids, interleave_injective octets⟩
  · rintro ⟨ids, serial, revision⟩
    rw [ids, serial, revision]

/-! ## The grid -/

/-- The draw is one of the `2 ^ 53` multiples of `2 ^ -53` in `[0, 1)`. -/
def Draw.OnGrid (draw : Draw) : Prop := ∃ k : ℕ, k < 2 ^ 53 ∧ draw.unit = k / 2 ^ 53

theorem unitDraw_grid (draw : Draw) : draw.OnGrid := by
  refine ⟨_, ?_, unit_eq draw⟩
  rw [UInt64.toNat_shiftRight, Nat.shiftRight_eq_div_pow]
  have bound := (hashText 1469598103934665603 draw.hashed).toNat_lt
  have shift : (11 : UInt64).toNat % 64 = 11 := rfl
  rw [shift]
  omega

theorem Draw.OnGrid.nonneg {draw : Draw} (h : draw.OnGrid) : 0 ≤ draw.unit := by
  obtain ⟨k, _, hk⟩ := h
  rw [hk]
  positivity

/-- Nothing is dropped on a link with the rate 0, whatever else its profile says. -/
theorem decide_of_rate_zero {gate : MessageTransportGate} {source target : Bytes} {profile : Profile}
    (h : gate.mProfiles.get? (source, target) = some profile) (hloss : profile.lossRate = 0) (messageSerial : UInt64) :
    (gate.decide source target messageSerial).disposition ≠ .drop := by
  have draw := (unitDraw_grid ⟨source, target, messageSerial, gate.mLatestRevision⟩).nonneg
  have keeps : ¬ (1 ≤ profile.lossRate ∨
      unitDraw source target messageSerial gate.mLatestRevision < profile.lossRate) := by
    rw [hloss, not_or, not_lt]
    exact ⟨by norm_num, draw⟩
  rw [MessageTransportGate.decide, h]
  dsimp only
  rw [if_neg keeps]
  split_ifs <;> simp

/-! ## Two draws -/

/-- Two draws are keyed apart: different ones hash different octets. -/
def Draw.KeyedApart (draw draw' : Draw) : Prop := draw ≠ draw' → draw.hashed ≠ draw'.hashed

/-- The draw of a link for a message. -/
def drawOf (link : Bytes × Bytes) (messageSerial revision : UInt64) : Draw :=
  ⟨link.1, link.2, messageSerial, revision⟩

theorem drawOf_unit (link : Bytes × Bytes) (messageSerial revision : UInt64) :
    (drawOf link messageSerial revision).unit = unitDraw link.1 link.2 messageSerial revision := rfl

def Draw.link (draw : Draw) : Bytes × Bytes := (draw.sourceEntityId, draw.targetEntityId)

/-- Two different links do not share the octets of all their messages. -/
def LinksApart (link link' : Bytes × Bytes) : Prop :=
  link ≠ link' → ∃ messageSerial revision,
    (drawOf link messageSerial revision).hashed ≠ (drawOf link' messageSerial revision).hashed

/-- Links whose IDs joined are the same lose the same messages under one profile. -/
theorem decide_eq_of_joined {gate : MessageTransportGate} {link link' : Bytes × Bytes} {profile : Profile}
    (h : gate.mProfiles.get? link = some profile) (h' : gate.mProfiles.get? link' = some profile)
    (joined : link.1 ++ link.2 = link'.1 ++ link'.2) (messageSerial : UInt64) :
    (gate.decide link.1 link.2 messageSerial).disposition =
      (gate.decide link'.1 link'.2 messageSerial).disposition := by
  have hashed : (drawOf link messageSerial gate.mLatestRevision).hashed =
      (drawOf link' messageSerial gate.mLatestRevision).hashed :=
    (hashed_eq_iff _ _).mpr ⟨joined, rfl, rfl⟩
  have draws := unit_eq_of_hashed hashed
  rw [drawOf_unit, drawOf_unit] at draws
  rw [MessageTransportGate.decide, MessageTransportGate.decide, h, h']
  dsimp only
  rw [draws]
  split_ifs <;> rfl

theorem keyedApart_iff (draw draw' : Draw) : draw.KeyedApart draw' ↔
    (draw.messageSerial = draw'.messageSerial → draw.revision = draw'.revision →
      draw.sourceEntityId ++ draw.targetEntityId = draw'.sourceEntityId ++ draw'.targetEntityId →
      draw.sourceEntityId = draw'.sourceEntityId) := by
  unfold Draw.KeyedApart
  rw [Ne, Ne, hashed_eq_iff]
  constructor
  · intro apart serial revision joined
    by_contra source
    apply apart
    · intro same
      exact source (congrArg Draw.sourceEntityId same)
    · exact ⟨joined, serial, revision⟩
  · rintro source different ⟨joined, serial, revision⟩
    have hsource := source serial revision joined
    rw [hsource] at joined
    have htarget := List.append_cancel_left joined
    apply different
    rcases draw with ⟨s, t, n, r⟩
    rcases draw' with ⟨s', t', n', r'⟩
    dsimp only at *
    rw [hsource, htarget, serial, revision]

theorem linksApart_iff (link link' : Bytes × Bytes) :
    LinksApart link link' ↔ (link.1 ++ link.2 = link'.1 ++ link'.2 → link.1 = link'.1) := by
  have key (messageSerial revision : UInt64) :
      (drawOf link messageSerial revision).hashed ≠ (drawOf link' messageSerial revision).hashed ↔
        link.1 ++ link.2 ≠ link'.1 ++ link'.2 := by
    rw [Ne, hashed_eq_iff]
    exact not_congr ⟨fun h => h.1, fun h => ⟨h, rfl, rfl⟩⟩
  unfold LinksApart
  simp only [key, exists_const]
  constructor
  · intro apart joined
    by_contra source
    exact apart (fun same => source (congrArg Prod.fst same)) joined
  · intro source different joined
    have hsource := source joined
    rw [hsource] at joined
    exact different (Prod.ext hsource (List.append_cancel_left joined))

/-- Draws are on the grid and a rate of 0 drops nothing; but two draws are keyed apart exactly when IDs that read the
same joined have the same source, and so are two links. -/
theorem draws_keyed_iff (draw draw' : Draw) :
    (draw.KeyedApart draw' ↔
      (draw.messageSerial = draw'.messageSerial → draw.revision = draw'.revision →
        draw.sourceEntityId ++ draw.targetEntityId = draw'.sourceEntityId ++ draw'.targetEntityId →
        draw.sourceEntityId = draw'.sourceEntityId)) ∧
    (LinksApart draw.link draw'.link ↔
      (draw.sourceEntityId ++ draw.targetEntityId = draw'.sourceEntityId ++ draw'.targetEntityId →
        draw.sourceEntityId = draw'.sourceEntityId)) ∧
    draw.OnGrid ∧
    ∀ (gate : MessageTransportGate) (profile : Profile), gate.mProfiles.get? draw.link = some profile →
      profile.lossRate = 0 → ∀ messageSerial,
        (gate.decide draw.sourceEntityId draw.targetEntityId messageSerial).disposition ≠ .drop := by
  refine ⟨keyedApart_iff draw draw', linksApart_iff draw.link draw'.link, unitDraw_grid draw, ?_⟩
  intro gate profile found hloss messageSerial
  exact decide_of_rate_zero found hloss messageSerial

/-- The links from 1 to 12 and from 11 to 2. -/
theorem joined_ids_collide :
    (∀ id ∈ [ascii "1", ascii "12", ascii "11", ascii "2"], id ≠ [] ∧ id.all isDigit) ∧
    (∀ messageSerial revision, ¬ Draw.KeyedApart (drawOf (ascii "1", ascii "12") messageSerial revision)
      (drawOf (ascii "11", ascii "2") messageSerial revision)) ∧
    ¬ LinksApart (ascii "1", ascii "12") (ascii "11", ascii "2") := by
  have joined : ascii "1" ++ ascii "12" = ascii "11" ++ ascii "2" := by decide
  have sources : ascii "1" ≠ ascii "11" := by decide
  refine ⟨by decide, ?_, ?_⟩
  · intro messageSerial revision apart
    exact sources ((keyedApart_iff _ _).mp apart rfl rfl joined)
  · intro apart
    exact sources ((linksApart_iff _ _).mp apart joined)

end AfsimNs3.Adapter.MessageTransportGate
