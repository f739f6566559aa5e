import LedgerClient.Proofs.Update.Checking
import Mathlib.Data.List.Perm.Basic
/-!
# Checks one after another

An update goes through the hands of several signers, each of which checks the envelope that the one
before it has made.

* `checkInTurn`: the envelope that the last signer makes.
* `Countersigns`: the signatures that come to an update, one for each organization that it does not
  name yet.  `checkInTurn_countersigns`: this is what a row of checks adds.
* `RoomFor`: the signatures can be written.  `RoomFor.perm`: this does not depend on the order.
* `checkAndSign_adds_once`: when a check succeeds, what it adds, that a second one adds nothing, and
  that the organizations do not depend on the order of the signers.
-/

namespace LedgerClient

variable {envelope signed : Envelope} {channelId id : String} {signer : Signer}
  {update : ConfigUpdateEnvelope} {headers : HeaderSource} {s : ConfigSignature}
  {added : List ConfigSignature}

/-! ## Several signers -/

/-- One of several checks: who makes it, and for which channel. -/
structure Turn where
  signer : Signer
  channelId : String
  headers : HeaderSource

namespace Turn

def organization (t : Turn) : String := t.signer.orgId

/-- The signature that the signer would add. -/
def Makes (t : Turn) (configUpdate : Bytes) (s : ConfigSignature) : Prop :=
  ∃ headers', signConfigUpdate t.signer configUpdate t.headers = .ok s headers'

/-- The signer does not fail, its identity names its organization, and it means the channel. -/
structure Ready (t : Turn) (channelId : String) : Prop where
  named : t.signer.Named
  total : t.signer.Total
  channel : t.channelId = "" ∨ t.channelId = channelId

end Turn

/-- Each signer checks the envelope that the one before it has made. -/
def checkInTurn : List Turn → Envelope → Except ClientError Envelope
  | [], envelope => .ok envelope
  | t :: rest, envelope =>
    match checkAndSign envelope t.signer t.channelId t.headers with
    | .ok signed _ => checkInTurn rest signed
    | .error e _ => .error e

variable {t : Turn} {turns rest signing : List Turn}

/-- The signatures of any of the signers can be written with the update; longer updates have no
encoding. -/
def RoomFor (update : ConfigUpdateEnvelope) (turns : List Turn) : Prop :=
  ∀ signing added, signing.Sublist turns →
    List.Forall₂ (fun t s => t.Makes update.configUpdate s) signing added →
    (toWire (update.extend added)).length < 2 ^ 32

namespace RoomFor

theorem short (h : RoomFor update (t :: rest))
    (hadded : t.signer.Contributes update t.headers added) :
    (toWire (update.extend added)).length < 2 ^ 32 := by
  obtain ⟨-, rfl⟩ | ⟨-, s, headers', hmade, rfl⟩ := hadded
  · exact h [] [] (List.nil_sublist _) .nil
  · exact h [t] [s] (List.singleton_sublist.2 List.mem_cons_self) (.cons ⟨headers', hmade⟩ .nil)

theorem mono (h : RoomFor update turns) (hsub : rest.Sublist turns) : RoomFor update rest :=
  fun signing added hsigning => h signing added (hsigning.trans hsub)

theorem extend (h : RoomFor update (t :: rest)) (hmakes : t.Makes update.configUpdate s) :
    RoomFor (update.extend [s]) rest := by
  intro signing added hsub hadded
  rw [ConfigUpdateEnvelope.extend_extend]
  exact h (t :: signing) (s :: added) (hsub.cons_cons t) (.cons hmakes hadded)

theorem perm {turns' : List Turn} (h : RoomFor update turns) (hperm : turns'.Perm turns) :
    RoomFor update turns' := by
  intro signing added hsub hadded
  obtain ⟨signing', hsigning, hsub'⟩ := List.exists_perm_sublist hsub hperm
  obtain ⟨added', hadded', hpermuted⟩ := List.perm_comp_forall₂ hsigning hadded
  have hshort := h signing' added' hsub' hadded'
  rw [update.length_toWire_extend, (hpermuted.flatMap_right toWire).length_eq,
    ← update.length_toWire_extend] at hshort
  exact hshort

/-- There is room if none of the signatures is longer than `n`. -/
theorem of_length_le {n : Nat}
    (hmakes : ∀ t ∈ turns, ∀ s, t.Makes update.configUpdate s → (toWire s).length ≤ n)
    (h : (toWire update).length + turns.length * n < 2 ^ 32) : RoomFor update turns := by
  intro signing added hsub hadded
  have hlength : (added.flatMap toWire).length ≤ signing.length * n := by
    replace hmakes := fun t ht => hmakes t (hsub.subset ht)
    clear hsub
    induction hadded with
    | nil => exact Nat.zero_le _
    | cons hhead _ ih =>
      obtain ⟨hfirst, hrest⟩ := List.forall_mem_cons.1 hmakes
      rw [List.flatMap_cons, List.length_append, List.length_cons, Nat.succ_mul, Nat.add_comm]
      exact Nat.add_le_add (ih hrest) (hfirst _ hhead)
  rw [update.length_toWire_extend]
  have hfewer := Nat.mul_le_mul_right n hsub.length_le
  omega

end RoomFor

/-- What comes to an update: the signatures of some of the signers in their order, one for each
organization that no signature of the update names. -/
structure Countersigns (update : ConfigUpdateEnvelope) (turns signing : List Turn)
    (added : List ConfigSignature) : Prop where
  sublist : signing.Sublist turns
  distinct : (signing.map Turn.organization).Nodup
  mem_iff : ∀ o, o ∈ signing.map Turn.organization ↔
    o ∈ turns.map Turn.organization ∧ ¬update.Names o
  makes : List.Forall₂ (fun t s => t.Makes update.configUpdate s) signing added
  names : List.Forall₂ (fun t s => s.NamesOnly t.organization) signing added

namespace Countersigns

theorem nil (update : ConfigUpdateEnvelope) : Countersigns update [] [] [] where
  sublist := .slnil
  distinct := .nil
  mem_iff _ := ⟨fun h => (nomatch h), fun h => (nomatch h.1)⟩
  makes := .nil
  names := .nil

/-- A signer whose organization is named adds nothing. -/
theorem skip (h : Countersigns update rest signing added) (hnamed : update.Names t.organization) :
    Countersigns update (t :: rest) signing added where
  sublist := h.sublist.cons t
  distinct := h.distinct
  mem_iff o := by
    rw [h.mem_iff, List.map_cons, List.mem_cons]
    refine and_congr_left fun hunnamed => ?_
    rw [or_iff_right]
    rintro rfl
    exact hunnamed hnamed
  makes := h.makes
  names := h.names

/-- A signer whose organization is not named adds a signature, after which it is. -/
theorem sign (h : Countersigns (update.extend [s]) rest signing added)
    (hunnamed : ¬update.Names t.organization) (hmakes : t.Makes update.configUpdate s)
    (hnames : s.NamesOnly t.organization) :
    Countersigns update (t :: rest) (t :: signing) (s :: added) := by
  have hextended (o : String) : (update.extend [s]).Names o ↔
      update.Names o ∨ t.organization = o := by
    rw [ConfigUpdateEnvelope.names_extend, ← hnames o]
    simp only [List.mem_singleton, exists_eq_left]
  refine ⟨h.sublist.cons_cons t, List.nodup_cons.2 ⟨?_, h.distinct⟩, fun o => ?_,
    .cons hmakes h.makes, .cons hnames h.names⟩
  · intro hmem
    exact ((h.mem_iff _).1 hmem).2 ((hextended _).2 (.inr rfl))
  · rw [List.map_cons, List.map_cons, List.mem_cons, List.mem_cons, h.mem_iff, hextended]
    by_cases ho : o = t.organization
    · subst ho
      exact iff_of_true (.inl rfl) ⟨.inl rfl, hunnamed⟩
    · rw [or_iff_right ho, or_iff_right ho, or_iff_left (Ne.symm ho)]

theorem exists_isFrom_iff
    (h : List.Forall₂ (fun t s => s.NamesOnly t.organization) signing added) {o : String} :
    (∃ s ∈ added, s.isFrom o = true) ↔ o ∈ signing.map Turn.organization := by
  induction h with
  | nil => exact ⟨fun ⟨_, h, _⟩ => (nomatch h), fun h => (nomatch h)⟩
  | cons hhead _ ih =>
    rw [List.exists_mem_cons_iff, hhead o, ih, List.map_cons, List.mem_cons, eq_comm]

/-- In the end the organizations of all signers are named. -/
theorem names_extend (h : Countersigns update turns signing added) (o : String) :
    (update.extend added).Names o ↔ update.Names o ∨ o ∈ turns.map Turn.organization := by
  rw [ConfigUpdateEnvelope.names_extend, exists_isFrom_iff h.names, h.mem_iff]
  by_cases ho : update.Names o
  · exact iff_of_true (.inl ho) (.inl ho)
  · rw [and_iff_left ho]

end Countersigns

/-- One check of a signer that does not fail. -/
theorem Turn.Ready.exists_check (h : t.Ready channelId)
    (hread : envelope.IsUpdateFor channelId update) :
    ∃ signed headers' added,
      checkAndSign envelope t.signer t.channelId t.headers = .ok signed headers' ∧
      t.signer.Contributes update t.headers added ∧
      ((toWire (update.extend added)).length < 2 ^ 32 →
        signed.IsUpdateFor channelId (update.extend added)) := by
  obtain ⟨signed, headers', hsigned⟩ :=
    (exists_checkAndSign_iff h.total envelope t.channelId t.headers).2 ⟨_, _, hread, h.channel⟩
  obtain ⟨added, hadded, hupdate⟩ := checkAndSign_contributes h.named hread hsigned
  exact ⟨signed, headers', added, hsigned, hadded, hupdate⟩

/-- A row of checks succeeds, and every organization that is not named yet gets one signature. -/
theorem checkInTurn_countersigns (hread : envelope.IsUpdateFor channelId update)
    (hready : ∀ t ∈ turns, t.Ready channelId) (hroom : RoomFor update turns) :
    ∃ last signing added, checkInTurn turns envelope = .ok last ∧
      last.IsUpdateFor channelId (update.extend added) ∧
      Countersigns update turns signing added := by
  -- the rest of the signers start from the update as the first one leaves it
  induction turns generalizing envelope update with
  | nil =>
    refine ⟨envelope, [], [], rfl, ?_, .nil update⟩
    rw [update.extend_nil]
    exact hread
  | cons t rest ih =>
    obtain ⟨hfirst, hrest⟩ := List.forall_mem_cons.1 hready
    obtain ⟨signed, headers', added, hcheck, hadded, hsigned⟩ := hfirst.exists_check hread
    have hrun : checkInTurn (t :: rest) envelope = checkInTurn rest signed := by
      rw [checkInTurn, hcheck]
    rw [hrun]
    have hread' := hsigned (hroom.short hadded)
    obtain ⟨hnamed, rfl⟩ | ⟨hunnamed, s, after, hmade, rfl⟩ := hadded
    · rw [update.extend_nil] at hread'
      obtain ⟨last, signing, added, hlast, hupdate, hsigns⟩ :=
        ih hread' hrest (hroom.mono (List.sublist_cons_self t rest))
      exact ⟨last, signing, added, hlast, hupdate, hsigns.skip hnamed⟩
    · have hmakes : t.Makes update.configUpdate s := ⟨after, hmade⟩
      obtain ⟨last, signing, added, hlast, hupdate, hsigns⟩ :=
        ih hread' hrest (hroom.extend hmakes)
      rw [ConfigUpdateEnvelope.extend_extend] at hupdate
      exact ⟨last, t :: signing, s :: added, hlast, hupdate,
        hsigns.sign hunnamed hmakes (namesOnly_of_signConfigUpdate hfirst.named hmade)⟩

/-- A check of a signer that does not fail succeeds exactly if an update can be read from the
envelope, for the channel that is meant.  It keeps the update and its signatures and adds one of the
signer exactly if none of them names the organization of the signer; a second check adds nothing.
Several signers, in any order, add one signature for each of their organizations that is not
named. -/
theorem checkAndSign_adds_once (envelope : Envelope) (signer : Signer) (id : String)
    (headers : HeaderSource) (hsigner : signer.Named) (htotal : signer.Total) :
    ((∃ signed headers', checkAndSign envelope signer id headers = .ok signed headers') ↔
      ∃ channel update, envelope.IsUpdateFor channel update ∧ (id = "" ∨ id = channel)) ∧
    ∀ channel update, envelope.IsUpdateFor channel update →
      (∀ signed headers', checkAndSign envelope signer id headers = .ok signed headers' →
        RoomFor update [⟨signer, id, headers⟩] →
        ∃ added, signer.Contributes update headers added ∧
          (∀ s ∈ added, s.NamesOnly signer.orgId) ∧
          signed.IsUpdateFor channel (update.extend added) ∧
          ∀ more, ∃ again headers'', checkAndSign signed signer id more = .ok again headers'' ∧
            again.IsUpdateFor channel (update.extend added)) ∧
      ∀ turns, (∀ t ∈ turns, t.Ready channel) → RoomFor update turns →
        ∃ last signing added, checkInTurn turns envelope = .ok last ∧
          last.IsUpdateFor channel (update.extend added) ∧
          Countersigns update turns signing added ∧
          ∀ turns', turns'.Perm turns → ∃ last' signing' added',
            checkInTurn turns' envelope = .ok last' ∧
            last'.IsUpdateFor channel (update.extend added') ∧
            Countersigns update turns' signing' added' ∧
            ∀ o, (update.extend added').Names o ↔ (update.extend added).Names o := by
  refine ⟨exists_checkAndSign_iff htotal envelope id headers, fun channel update hread => ⟨?_, ?_⟩⟩
  · intro signed headers' hcheck hroom
    obtain ⟨added, hadded, hupdate⟩ := checkAndSign_contributes hsigner hread hcheck
    have hread' := hupdate (hroom.short hadded)
    obtain ⟨channel', found, -, -, hfound, hid, -⟩ := checkAndSign_holds hcheck
    obtain ⟨rfl, -⟩ := hread.unique hfound
    exact ⟨added, hadded, hadded.namesOnly hsigner, hread', fun more =>
      exists_checkAndSign_of_names hsigner htotal hread' hid (hadded.names hsigner) more⟩
  · intro turns hready hroom
    obtain ⟨last, signing, added, hlast, hupdate, hsigns⟩ :=
      checkInTurn_countersigns hread hready hroom
    refine ⟨last, signing, added, hlast, hupdate, hsigns, fun turns' hperm => ?_⟩
    obtain ⟨last', signing', added', hlast', hupdate', hsigns'⟩ :=
      checkInTurn_countersigns hread (fun t ht => hready t (hperm.mem_iff.1 ht)) (hroom.perm hperm)
    refine ⟨last', signing', added', hlast', hupdate', hsigns', fun o => ?_⟩
    rw [hsigns'.names_extend, hsigns.names_extend, (hperm.map Turn.organization).mem_iff]

/-! ### Three signers -/

def neutralTurn (organization channelId : String) : Turn :=
  ⟨neutralSigner organization, channelId, epoch⟩

/-- An update with a signature that cannot be read and one that names the third organization. -/
def mixedUpdate : ConfigUpdateEnvelope where
  configUpdate := [1, 2, 3]
  signatures := [⟨[255], []⟩, neutralConfigSignature "Org3MSP"]

theorem eq_of_neutralTurn_makes {organization : String} {configUpdate : Bytes}
    (h : (neutralTurn organization channelId).Makes configUpdate s) :
    s = neutralConfigSignature organization := by
  obtain ⟨headers', hmade⟩ := h
  obtain ⟨nonce, hnonce, hheader, hsign, -⟩ := signConfigUpdate_ok_iff.1 hmade
  obtain ⟨header, signature⟩ := s
  cases hnonce
  cases hheader
  cases hsign
  rfl

theorem neutralTurn_ready {organization : String}
    (h : (identityOf organization Ed25519.neutralKey).length < 2 ^ 31)
    (hid : id = "" ∨ id = channelId) : (neutralTurn organization id).Ready channelId where
  named := (neutralSigner_honest h).toNamed
  total := (neutralSigner_honest h).toTotal
  channel := hid

def mixedTurns : List Turn :=
  [neutralTurn "Org1MSP" "", neutralTurn "Org3MSP" "ch", neutralTurn "Org2MSP" ""]

theorem ready_of_mem_mixedTurns : ∀ t ∈ mixedTurns, t.Ready "ch" := by
  intro t ht
  simp only [mixedTurns, List.mem_cons, List.not_mem_nil, or_false] at ht
  obtain rfl | rfl | rfl := ht
  · exact neutralTurn_ready (by decide) (.inl rfl)
  · exact neutralTurn_ready (by decide) (.inr rfl)
  · exact neutralTurn_ready (by decide) (.inl rfl)

theorem roomFor_mixedTurns : RoomFor mixedUpdate mixedTurns := by
  have hmakes : ∀ t ∈ mixedTurns, ∀ s, t.Makes mixedUpdate.configUpdate s →
      (toWire s).length ≤ 151 := by
    intro t ht s hs
    simp only [mixedTurns, List.mem_cons, List.not_mem_nil, or_false] at ht
    obtain rfl | rfl | rfl := ht <;> rw [eq_of_neutralTurn_makes hs] <;> decide +kernel
  exact .of_length_le hmakes (by decide +kernel)

theorem mixedUpdate_isUpdateFor :
    (unsignedEnvelope "ch" mixedUpdate).IsUpdateFor "ch" mixedUpdate :=
  (unsignedEnvelope_holds _ _).isUpdateFor (by decide) (by decide) (by decide) (by decide +kernel)

/-- The first and the second organization sign, in any order; the third one has signed. -/
theorem checkAndSign_adds_once_mixedTurns :
    let envelope := unsignedEnvelope "ch" mixedUpdate
    (∀ t ∈ mixedTurns, t.Ready "ch") ∧ envelope.IsUpdateFor "ch" mixedUpdate ∧
      RoomFor mixedUpdate mixedTurns ∧
      (∃ signed headers' s,
        checkAndSign envelope (neutralSigner "Org1MSP") "" epoch = .ok signed headers' ∧
        s.NamesOnly "Org1MSP" ∧ signed.IsUpdateFor "ch" (mixedUpdate.extend [s]) ∧
        ∃ again headers'',
          checkAndSign signed (neutralSigner "Org1MSP") "" epoch = .ok again headers'' ∧
          again.IsUpdateFor "ch" (mixedUpdate.extend [s])) ∧
      ∃ last last' signing added added', checkInTurn mixedTurns envelope = .ok last ∧
        last.IsUpdateFor "ch" (mixedUpdate.extend added) ∧
        Countersigns mixedUpdate mixedTurns signing added ∧
        "Org3MSP" ∉ signing.map Turn.organization ∧ (mixedUpdate.extend added).Names "Org2MSP" ∧
        checkInTurn mixedTurns.reverse envelope = .ok last' ∧
        last'.IsUpdateFor "ch" (mixedUpdate.extend added') ∧
        ∀ o, (mixedUpdate.extend added').Names o ↔ (mixedUpdate.extend added).Names o := by
  intro envelope
  have hthird : mixedUpdate.Names "Org3MSP" := List.any_eq_true.1 (by decide +kernel)
  have hfirst : ¬mixedUpdate.Names "Org1MSP" := mt List.any_eq_true.2 (by decide +kernel)
  have hsigner := ready_of_mem_mixedTurns _ List.mem_cons_self
  obtain ⟨haccepted, hadds⟩ := checkAndSign_adds_once envelope (neutralSigner "Org1MSP") "" epoch
    hsigner.named hsigner.total
  obtain ⟨signed, headers', hcheck⟩ := haccepted.2 ⟨_, _, mixedUpdate_isUpdateFor, .inl rfl⟩
  obtain ⟨honce, hturns⟩ := hadds _ _ mixedUpdate_isUpdateFor
  obtain ⟨added, hadded, hnames, hsigned, hagain⟩ := honce signed headers' hcheck
    (roomFor_mixedTurns.mono (List.singleton_sublist.2 List.mem_cons_self))
  obtain ⟨hnamed, -⟩ | ⟨-, s, -, -, rfl⟩ := hadded
  · exact absurd hnamed hfirst
  obtain ⟨last, signing, more, hlast, hupdate, hsigns, hreorder⟩ :=
    hturns mixedTurns ready_of_mem_mixedTurns roomFor_mixedTurns
  obtain ⟨last', -, more', hlast', hupdate', -, hsame⟩ :=
    hreorder mixedTurns.reverse mixedTurns.reverse_perm
  have hsecond : (mixedUpdate.extend more).Names "Org2MSP" :=
    (hsigns.names_extend _).2 (.inr (by decide))
  exact ⟨ready_of_mem_mixedTurns, mixedUpdate_isUpdateFor, roomFor_mixedTurns,
    ⟨signed, headers', s, hcheck, hnames s (List.mem_singleton_self s), hsigned, hagain epoch⟩,
    last, last', signing, more, more', hlast, hupdate, hsigns,
    fun h => ((hsigns.mem_iff _).1 h).2 hthird, hsecond, hlast', hupdate', hsame⟩

end LedgerClient
