import LedgerClient.Proofs.Update.Change
/-!
# What a difference tells

How far two configurations and the difference between them determine each other.

* `Dict.foldl_entries_at`: a fold over the entries of a dictionary, each of which is seen under its
  own key only.
* `seenUnder_changedConsortiums`: which consortiums the two sets of a difference hold.
* `ChannelGroup.AlikeBesidesLost`: two groups that are the same up to consortiums that only one of
  them has lost.
* `computeDelta_determines`: this is how far a difference determines the group that it leads to.
* `computeDelta_lostConsortium`: groups that have lost different consortiums, with the same
  difference.
-/

namespace LedgerClient

/-! ## Entries -/

/-- In a fold over entries each of which is seen under its own key only, the entry with a key, if
there is one, decides what is seen there in the end. -/
theorem Dict.foldl_entries_at {α β γ : Type} {step : β → String × α → β} (view : β → γ)
    (f : α → γ → γ) {k : String} (hat : ∀ b v, view (step b (k, v)) = f v (view b))
    (hother : ∀ b e, e.1 ≠ k → view (step b e) = view b) (d : Dict α) (b : β) :
    view (d.entries.foldl step b) = (d.get? k).elim (view b) (f · (view b)) := by
  obtain ⟨l, hl⟩ := d
  change view (l.foldl step b) = (lookupEntry k l).elim (view b) (f · (view b))
  induction l generalizing b with
  | nil => rfl
  | cons e l ih =>
    obtain ⟨k', v⟩ := e
    obtain ⟨hlt, hl⟩ := List.pairwise_cons.1 hl
    rw [List.foldl_cons, ih _ hl, lookupEntry]
    by_cases hk : k = k'
    · subst hk
      have habsent : lookupEntry k l = none :=
        lookupEntry_eq_none fun e he heq => String.lt_irrefl k (heq ▸ hlt e he)
      rw [habsent, if_pos rfl, Option.elim_none, Option.elim_some, hat]
    · rw [if_neg hk, hother b (k', v) (Ne.symm hk)]

/-! ## Consortiums -/

/-- What a consortium of the new configuration adds to the two sets of a difference. -/
def noteConsortium (before : Dict ConsortiumGroup)
    (sets : Dict ConsortiumGroup × Dict ConsortiumGroup) (e : String × ConsortiumGroup) :
    Dict ConsortiumGroup × Dict ConsortiumGroup :=
  if before.get? e.1 = some e.2 then sets
  else
    (match before.get? e.1 with
      | some old => sets.1.insert e.1 old
      | none => sets.1,
    sets.2.insert e.1 e.2)

theorem changedConsortiums_eq (before after : Dict ConsortiumGroup) :
    changedConsortiums before after =
      after.entries.foldl (noteConsortium before) (.empty, .empty) := rfl

/-- What two sets of consortiums hold under a name. -/
def seenUnder (k : String) (sets : Dict ConsortiumGroup × Dict ConsortiumGroup) :
    Option ConsortiumGroup × Option ConsortiumGroup :=
  (sets.1.get? k, sets.2.get? k)

theorem seenUnder_noteConsortium (before : Dict ConsortiumGroup) (k : String)
    (sets : Dict ConsortiumGroup × Dict ConsortiumGroup) (c : ConsortiumGroup) :
    seenUnder k (noteConsortium before sets (k, c)) =
      if before.get? k = some c then seenUnder k sets
      else ((before.get? k).or (seenUnder k sets).1, some c) := by
  rw [noteConsortium]
  dsimp only
  split
  · rfl
  · cases hold : before.get? k with
    | none => simp [seenUnder, Dict.get?_insert]
    | some old => simp [seenUnder, Dict.get?_insert]

theorem seenUnder_noteConsortium_of_ne (before : Dict ConsortiumGroup) {k : String}
    (sets : Dict ConsortiumGroup × Dict ConsortiumGroup) {e : String × ConsortiumGroup}
    (h : e.1 ≠ k) : seenUnder k (noteConsortium before sets e) = seenUnder k sets := by
  rw [noteConsortium]
  split
  · rfl
  · cases hold : before.get? e.1 with
    | none => simp [seenUnder, Dict.get?_insert, h.symm]
    | some old => simp [seenUnder, Dict.get?_insert, h.symm]

/-- Under every name the two sets of a difference hold what the consortium was and what it has
become, if it is still there and has changed, and nothing otherwise. -/
theorem seenUnder_changedConsortiums (before after : Dict ConsortiumGroup) (k : String) :
    seenUnder k (changedConsortiums before after) =
      if after.get? k = none ∨ after.get? k = before.get? k then (none, none)
      else (before.get? k, after.get? k) := by
  have hfold := Dict.foldl_entries_at (seenUnder k)
    (fun c seen => if before.get? k = some c then seen else ((before.get? k).or seen.1, some c))
    (seenUnder_noteConsortium before k) (fun sets _ => seenUnder_noteConsortium_of_ne before sets)
    after (.empty, .empty)
  rw [changedConsortiums_eq, hfold]
  cases hafter : after.get? k with
  | none => rfl
  | some c =>
    rw [Option.elim_some, eq_comm]
    by_cases hsame : before.get? k = some c
    · rw [if_pos (.inr hsame.symm), if_pos hsame]
      rfl
    · have hchanged : ¬(some c = none ∨ some c = before.get? k) := by
        rintro (h | h)
        · cases h
        · exact hsame h.symm
      rw [if_neg hchanged, if_neg hsame]
      cases before.get? k with
      | none => rfl
      | some old => rfl

/-! ## Groups -/

/-- Where values are kept exactly if they differ, what is kept of two values tells them. -/
theorem unlessEqual_inj {α : Type} [DecidableEq α] {a b b' same : α}
    (hread : unlessEqual a b same = unlessEqual a b' same)
    (hwrite : unlessEqual b a same = unlessEqual b' a same) : b = b' := by
  simp only [unlessEqual] at hread hwrite
  grind

/-- The two groups are the same, up to consortiums that the one has lost and the other has kept as
they were in the group that both come from. -/
structure ChannelGroup.AlikeBesidesLost (origin group group' : ChannelGroup) : Prop where
  consortium : group.consortium = group'.consortium
  application : group.application = group'.application
  orderer : group.orderer = group'.orderer
  capabilities : group.capabilities = group'.capabilities
  policies : group.policies = group'.policies
  consortiums : ∀ k, group.consortiums.get? k = group'.consortiums.get? k ∨
    group.consortiums.get? k = none ∧
      group'.consortiums.get? k = origin.consortiums.get? k ∨
    group'.consortiums.get? k = none ∧
      group.consortiums.get? k = origin.consortiums.get? k

variable {origin group group' : ChannelGroup} {original updated updated' : Config}
  {channelId : String}

/-- The groups are the same if they still have the same ones of the consortiums that were there. -/
theorem ChannelGroup.AlikeBesidesLost.eq (h : origin.AlikeBesidesLost group group')
    (hlost : ∀ k, origin.consortiums.get? k ≠ none →
      (group.consortiums.get? k = none ↔ group'.consortiums.get? k = none)) : group = group' := by
  have hconsortiums : group.consortiums = group'.consortiums := Dict.ext_get? fun k => by
    have hsame := h.consortiums k
    have hkept := hlost k
    grind
  obtain ⟨consortium, application, orderer, consortiums, capabilities, policies⟩ := group
  obtain ⟨consortium', application', orderer', consortiums', capabilities', policies'⟩ := group'
  obtain ⟨rfl, rfl, rfl, rfl, rfl, -⟩ := h
  obtain rfl : consortiums = consortiums' := hconsortiums
  rfl

/-- What is seen of the consortiums in a difference tells a consortium, if it is still there. -/
theorem changedConsortiums_eq_iff {before after after' : Dict ConsortiumGroup} :
    changedConsortiums before after = changedConsortiums before after' ↔
      ∀ k, after.get? k = after'.get? k ∨
        after.get? k = none ∧ after'.get? k = before.get? k ∨
        after'.get? k = none ∧ after.get? k = before.get? k := by
  have hseen : changedConsortiums before after = changedConsortiums before after' ↔
      ∀ k, seenUnder k (changedConsortiums before after) =
        seenUnder k (changedConsortiums before after') := by
    constructor
    · exact fun h k => congrArg (seenUnder k) h
    · intro h
      exact Prod.ext (Dict.ext_get? fun k => congrArg Prod.fst (h k))
        (Dict.ext_get? fun k => congrArg Prod.snd (h k))
  rw [hseen]
  refine forall_congr' fun k => ?_
  rw [seenUnder_changedConsortiums, seenUnder_changedConsortiums]
  grind

theorem deltaOf_eq_iff : deltaOf channelId original updated = deltaOf channelId original updated' ↔
    original.channelGroup.AlikeBesidesLost updated.channelGroup updated'.channelGroup := by
  constructor
  · intro h
    have hread := congrArg ConfigUpdate.readSet h
    have hwrite := congrArg ConfigUpdate.writeSet h
    have hsets : changedConsortiums original.channelGroup.consortiums
        updated.channelGroup.consortiums =
        changedConsortiums original.channelGroup.consortiums updated'.channelGroup.consortiums :=
      Prod.ext (congrArg ChannelGroup.consortiums hread) (congrArg ChannelGroup.consortiums hwrite)
    have hconsortium := congrArg ChannelGroup.consortium hwrite
    exact {
      consortium := hconsortium
      application := unlessEqual_inj (congrArg ChannelGroup.application hread)
        (congrArg ChannelGroup.application hwrite)
      orderer := unlessEqual_inj (congrArg ChannelGroup.orderer hread)
        (congrArg ChannelGroup.orderer hwrite)
      capabilities := unlessEqual_inj (congrArg ChannelGroup.capabilities hread)
        (congrArg ChannelGroup.capabilities hwrite)
      policies := unlessEqual_inj (congrArg ChannelGroup.policies hread)
        (congrArg ChannelGroup.policies hwrite)
      consortiums := changedConsortiums_eq_iff.1 hsets }
  · intro h
    have hsets := changedConsortiums_eq_iff.2 h.consortiums
    simp only [deltaOf, ChannelGroup.differing, hsets, h.consortium, h.application, h.orderer,
      h.capabilities, h.policies]

/-- Two configurations whose groups both differ from the original one have differences to it.  These
are the same exactly if the groups are, up to consortiums that the one has lost and the other one
has kept as they were.  So a difference determines the group that it leads to, in every part, among
those that have lost the same consortiums. -/
theorem computeDelta_determines (channelId : String) (original updated updated' : Config)
    (h : updated.channelGroup ≠ original.channelGroup)
    (h' : updated'.channelGroup ≠ original.channelGroup) :
    ∃ delta delta', computeDelta channelId original updated = .ok delta ∧
      computeDelta channelId original updated' = .ok delta' ∧
      (delta = delta' ↔
        original.channelGroup.AlikeBesidesLost updated.channelGroup updated'.channelGroup) ∧
      (delta = delta' →
        (∀ k, original.channelGroup.consortiums.get? k ≠ none →
          (updated.channelGroup.consortiums.get? k = none ↔
            updated'.channelGroup.consortiums.get? k = none)) →
        updated.channelGroup = updated'.channelGroup) :=
  ⟨_, _, computeDelta_of_ne channelId h, computeDelta_of_ne channelId h', deltaOf_eq_iff,
    fun hsame hlost => (deltaOf_eq_iff.1 hsame).eq hlost⟩

/-! ### Consortiums without members -/

/-- The configuration of a system channel whose consortiums have no members. -/
def consortiumConfig (names : List String) : Config where
  sequence := 1
  channelGroup :=
    { ChannelGroup.empty with consortiums := .ofList (names.map fun name => (name, ⟨.empty⟩)) }

/-- Two different consortiums that are added make different differences. -/
theorem computeDelta_determines_addedConsortium :
    let original := consortiumConfig ["Alpha"]
    let updated := consortiumConfig ["Alpha", "Beta"]
    let updated' := consortiumConfig ["Alpha", "Gamma"]
    updated.channelGroup ≠ original.channelGroup ∧
      updated'.channelGroup ≠ original.channelGroup ∧
      ∃ delta delta', computeDelta "system" original updated = .ok delta ∧
        computeDelta "system" original updated' = .ok delta' ∧ delta ≠ delta' := by
  intro original updated updated'
  have hne : updated.channelGroup ≠ original.channelGroup := by decide
  have hne' : updated'.channelGroup ≠ original.channelGroup := by decide
  obtain ⟨delta, delta', hdelta, hdelta', hiff, -⟩ :=
    computeDelta_determines "system" original updated updated' hne hne'
  refine ⟨hne, hne', delta, delta', hdelta, hdelta', fun hsame => ?_⟩
  exact absurd ((hiff.1 hsame).consortiums "Beta") (by decide)

/-- Of two consortiums one is lost, either the one or the other; the difference is the same. -/
theorem computeDelta_lostConsortium :
    let original := consortiumConfig ["Alpha", "Beta"]
    let updated := consortiumConfig ["Beta"]
    let updated' := consortiumConfig ["Alpha"]
    updated.channelGroup ≠ original.channelGroup ∧
      updated'.channelGroup ≠ original.channelGroup ∧
      updated.channelGroup ≠ updated'.channelGroup ∧
      ∃ delta, computeDelta "system" original updated = .ok delta ∧
        computeDelta "system" original updated' = .ok delta :=
  ⟨by decide, by decide, by decide, _, rfl, rfl⟩

end LedgerClient
