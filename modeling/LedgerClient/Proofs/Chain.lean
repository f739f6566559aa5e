import LedgerClient.Proofs.Fetching
import LedgerClient.Proofs.Update.Workflow
import Mathlib.Data.List.Chain
import Mathlib.Data.List.Nodup
/-!
# Finding the configuration of a chain

A chain of blocks has its configuration in the latest of its configuration blocks, whose number
every later block records.

* `Block.Records`, `Block.Holds`: the number that a block records, in either of two slots, and the
  configuration that it holds.  `lastConfigIndex_of_records`, `configEnvelope_of_holds`: both are
  found.
* `ValidChain`: consecutive blocks that record the latest configuration block each.
  `ValidChain.concat`: such a chain grows block by block.
* `fetch_asked`, `fetch_done_ok`: a fetch opens a stream and sends one request on it, whatever comes
  of that; a fetch that succeeds asks five calls.
* `Orderer.ServesChains`: an orderer that gives the blocks that are asked for, of a chain that may
  grow from one request to the next.
* `config_of_chain`: the configuration in force is found, with a request for the newest block and,
  unless this is the configuration block, a second one.
-/

namespace LedgerClient

/-! ## Configurations in blocks -/

namespace Block

/-- The signatures slot records nothing: it is missing, empty, or holds an empty value. -/
inductive SignaturesVacant (b : Block) : Prop
  | missing : b.metadata.metadata[signaturesSlot]? = none → SignaturesVacant b
  | empty : b.metadata.metadata[signaturesSlot]? = some [] → SignaturesVacant b
  | blank {slot : Bytes} {metadata : Metadata} : b.metadata.metadata[signaturesSlot]? = some slot →
      decodeMessage Metadata slot = .ok metadata → metadata.value = [] → SignaturesVacant b

/-- The block records the number of a configuration block, with the signatures or, where there is
nothing, in the slot of older ordering services. -/
inductive Records (b : Block) (number : UInt64) : Prop
  | withSignatures {slot : Bytes} {metadata : Metadata} {recorded : OrdererBlockMetadata} :
      b.metadata.metadata[signaturesSlot]? = some slot →
      decodeMessage Metadata slot = .ok metadata → metadata.value ≠ [] →
      decodeMessage OrdererBlockMetadata metadata.value = .ok recorded →
      recorded.lastConfig.index = number → Records b number
  | inOwnSlot {slot : Bytes} {metadata : Metadata} {recorded : LastConfig} : b.SignaturesVacant →
      b.metadata.metadata[lastConfigSlot]? = some slot →
      decodeMessage Metadata slot = .ok metadata →
      decodeMessage LastConfig metadata.value = .ok recorded →
      recorded.index = number → Records b number

/-- The first envelope of the block holds a configuration. -/
def Holds (b : Block) (config : ConfigEnvelope) : Prop :=
  ∃ data rest envelope payload header channelHeader, b.data.data = data :: rest ∧
    decodeMessage Envelope data = .ok envelope ∧
    decodeMessage Payload envelope.payload = .ok payload ∧ payload.header = some header ∧
    decodeMessage ChannelHeader header.channelHeader = .ok channelHeader ∧
    channelHeader.headerType = .config ∧ decodeMessage ConfigEnvelope payload.data = .ok config

variable {b : Block} {number : UInt64} {slot : Nat} {bytes : Bytes} {metadata : Metadata}

theorem metadataAt_of_decode (h : b.metadata.metadata[slot]? = some bytes)
    (hmetadata : decodeMessage Metadata bytes = .ok metadata) :
    b.metadataAt slot = .ok (some metadata) := by
  rw [metadataAt, h]
  cases bytes with
  | nil => cases hmetadata
  | cons c cs =>
    dsimp only
    rw [hmetadata]
    rfl

theorem lastConfigIndex_of_vacant (h : b.SignaturesVacant) :
    b.lastConfigIndex = b.lastConfigInOwnSlot := by
  rw [lastConfigIndex]
  cases h with
  | missing h =>
    rw [metadataAt, h]
    rfl
  | empty h =>
    rw [metadataAt, h]
    rfl
  | blank h hmetadata hvalue =>
    rw [metadataAt_of_decode h hmetadata]
    refine (if_pos ?_)
    rw [hvalue]
    rfl

theorem lastConfigIndex_of_records (h : b.Records number) : b.lastConfigIndex = .ok number := by
  cases h with
  | withSignatures hslot hmetadata hvalue hrecorded hnumber =>
    rw [lastConfigIndex, metadataAt_of_decode hslot hmetadata]
    refine (if_neg (mt List.isEmpty_iff.1 hvalue)).trans ?_
    rw [hrecorded, ← hnumber]
    rfl
  | inOwnSlot hvacant hslot hmetadata hrecorded hnumber =>
    rw [lastConfigIndex_of_vacant hvacant, lastConfigInOwnSlot,
      metadataAt_of_decode hslot hmetadata]
    change (decodeMessage LastConfig _ >>= fun recorded => pure recorded.index) = _
    rw [hrecorded, ← hnumber]
    rfl

theorem configEnvelope_of_holds {config : ConfigEnvelope} (h : b.Holds config) :
    b.configEnvelope = .ok config := by
  obtain ⟨data, rest, envelope, payload, header, channelHeader, hdata, henvelope, hpayload, hheader,
    hchannel, htype, hconfig⟩ := h
  rw [configEnvelope, hdata]
  refine except_bind_ok.2 ⟨envelope, henvelope, except_bind_ok.2 ⟨payload, hpayload, ?_⟩⟩
  rw [hheader]
  refine except_bind_ok.2 ⟨channelHeader, hchannel, ?_⟩
  rw [if_neg (not_not.2 htype)]
  exact hconfig

end Block

/-! ## Chains -/

/-- A block of a chain, with the configuration that it is to hold if it is a configuration block. -/
structure Link where
  block : Block
  config? : Option ConfigEnvelope

def Link.number (link : Link) : UInt64 := link.block.header.number

/-- The latest configuration block of a chain. -/
def latestConfig? (links : List Link) : Option Link := links.reverse.find? (·.config?.isSome)

/-- Blocks with consecutive numbers.  Each of them records the number of the latest configuration
block up to it, and the configuration blocks hold their configurations. -/
structure ValidChain (links : List Link) : Prop where
  numbered : links.IsChain fun a b => b.number.toNat = a.number.toNat + 1
  records : ∀ earlier link, earlier ++ [link] <+: links →
    ∃ latest, latestConfig? (earlier ++ [link]) = some latest ∧ link.block.Records latest.number
  holds : ∀ link ∈ links, ∀ config, link.config? = some config → link.block.Holds config

/-- The block of a chain that a request means. -/
def blockAt? (links : List Link) : SeekPosition → Option Block
  | .newest => links.getLast?.map (·.block)
  | .oldest => links.head?.map (·.block)
  | .specified number => (links.find? fun link => link.number = number).map (·.block)

section Chains

variable {links : List Link} {link latest : Link}

theorem latestConfig?_eq_some (h : latestConfig? links = some latest) :
    latest ∈ links ∧ ∃ config, latest.config? = some config := by
  have hmem := List.mem_of_find?_eq_some h
  have hsome := List.find?_some h
  exact ⟨List.mem_reverse.1 hmem, Option.isSome_iff_exists.1 hsome⟩

/-- The newest block comes first, if it is a configuration block. -/
theorem latestConfig?_append (earlier : List Link) (link : Link) :
    latestConfig? (earlier ++ [link]) =
      if link.config?.isSome then some link else latestConfig? earlier := by
  rw [latestConfig?, List.reverse_append, List.reverse_singleton, List.singleton_append,
    List.find?_cons]
  cases link.config?.isSome <;> rfl

namespace ValidChain

theorem nil : ValidChain [] where
  numbered := .nil
  records _ _ h := absurd (List.prefix_nil.1 h) (List.append_ne_nil_of_right_ne_nil _
    (List.cons_ne_nil _ _))
  holds _ h := nomatch h

/-- A chain grows by a block that has the next number, records the latest configuration block, and
holds a configuration if it is one itself. -/
theorem concat (h : ValidChain links) (link : Link)
    (hnumber : ∀ last ∈ links.getLast?, link.number.toNat = last.number.toNat + 1)
    (hlatest : latestConfig? (links ++ [link]) = some latest)
    (hrecords : link.block.Records latest.number)
    (hholds : ∀ config, link.config? = some config → link.block.Holds config) :
    ValidChain (links ++ [link]) where
  numbered := by
    refine List.isChain_append.2 ⟨h.numbered, .singleton link, fun last hlast next hnext => ?_⟩
    cases hnext
    exact hnumber last hlast
  records earlier other hprefix := by
    obtain heq | hprefix := List.prefix_concat_iff.1 hprefix
    · obtain ⟨rfl, hother⟩ := List.append_inj' heq rfl
      cases hother
      exact ⟨latest, hlatest, hrecords⟩
    · exact h.records earlier other hprefix
  holds other hother config hconfig := by
    obtain hother | hother := List.mem_append.1 hother
    · exact h.holds other hother config hconfig
    · cases List.mem_singleton.1 hother
      exact hholds config hconfig

theorem nodup_numbers (h : ValidChain links) : (links.map (·.number)).Nodup := by
  have hlt : links.IsChain fun a b => a.number.toNat < b.number.toNat :=
    h.numbered.imp fun a _ hnext => lt_of_lt_of_eq (Nat.lt_succ_self a.number.toNat) hnext.symm
  refine List.pairwise_map.2 ((List.isChain_iff_pairwise.1 hlt).imp fun hab heq => ?_)
  rw [heq] at hab
  exact Nat.lt_irrefl _ hab

/-- Blocks are told apart by their numbers. -/
theorem eq_of_number_eq (h : ValidChain links) {other : Link} (hlink : link ∈ links)
    (hother : other ∈ links) (hnumber : link.number = other.number) : link = other :=
  List.inj_on_of_nodup_map h.nodup_numbers hlink hother hnumber

theorem blockAt?_specified (h : ValidChain links) (hlink : link ∈ links) :
    blockAt? links (.specified link.number) = some link.block := by
  rw [blockAt?]
  cases hfind : links.find? fun other => other.number = link.number with
  | none => exact absurd (decide_eq_true rfl) (List.find?_eq_none.1 hfind link hlink)
  | some other =>
    have hfound := List.find?_some hfind
    rw [h.eq_of_number_eq (List.mem_of_find?_eq_some hfind) hlink (of_decide_eq_true hfound)]
    rfl

end ValidChain

end Chains

/-! ## The calls of a fetch -/

section Calls

variable {f : BlockFetcher} {p q : Progress} {position : SeekPosition} {block : Block}
  {envelope : Envelope} {headers : HeaderSource}

theorem openDeliver_asked (o : Orderer) (p : Progress) :
    (o.openDeliver p).progress.asked = p.asked ++ [⟨p.clock, o.id, .openDeliver⟩] :=
  Client.openSession_asked _ _ _ _ p

/-- A request for one block of a channel. -/
def Envelope.Seeks (envelope : Envelope) (channelId : String) (position : SeekPosition) : Prop :=
  ∃ time tlsCertHash header bestEffort, envelope.payload = toWire (payloadUnder
    (plainChannelHeader .deliverSeekInfo time channelId tlsCertHash) header
    (toWire (SeekInfo.single position bestEffort)))

theorem seeks_of_seekEnvelope
    (h : seekEnvelope f.channelId f.signer (.single position f.bestEffort) f.tlsCertHash headers =
      .ok envelope headers') : envelope.Seeks f.channelId position := by
  obtain ⟨nonce, -, hpayload, -, -⟩ := signedEnvelope_ok_iff.1 h
  exact ⟨_, _, _, _, hpayload⟩

theorem readOn_asked (f : BlockFetcher) (s : Stream DeliverResponse) (seek : Envelope)
    (p : Progress) :
    ∃ more, (f.readOn s seek p).progress.asked =
      p.asked ++ ⟨p.clock, s.node, .send seek⟩ :: more := by
  have hclose : ∀ result : Except ClientError Block, Client.AsksOnly NoBroadcast (do
      let _ ← Client.attempt s.close
      (result : Client Block)) := fun result =>
    .bind (.attempt (.bind (.note Call.noConfusion) fun _ => .await _)) fun _ => .lift result
  obtain ⟨read, hread, -⟩ := readBlock_asked f.orderer.id.address s seek
    { p with limit := some (p.before (p.clock + f.timeoutMs)) }
  obtain ⟨closed, hclosed, -⟩ := Client.bind_asked (Client.attempt <|
    Client.within f.timeoutMs (.timeout "block fetch" f.timeoutMs) <|
      readBlock f.orderer.id.address s seek) hclose p
  rw [Client.attempt_asked, Client.within_asked, hread, List.append_assoc, List.cons_append]
    at hclosed
  exact ⟨_, hclosed⟩

/-- A fetch whose stream opens sends its request, whatever comes of that. -/
theorem fetch_asked (hseek : seekEnvelope f.channelId f.signer (.single position f.bestEffort)
      f.tlsCertHash p.headers = .ok envelope headers) (hlimit : p.limit = none)
    (hopens : (f.orderer.deliver (p.calls f.orderer.id .deliver)).opening.outcome = .answered ()) :
    ∃ t more, (f.fetch position p).progress.asked =
        p.asked ++ ⟨p.clock, f.orderer.id, .openDeliver⟩ ::
          ⟨t, f.orderer.id, .send envelope⟩ :: more := by
  let start : Progress := { p with headers := headers }
  obtain ⟨q, hopen, -⟩ := openDeliver_of_answered (p := start) hopens hlimit
  have hopened := openDeliver_asked f.orderer start
  rw [hopen] at hopened
  rw [fetch_eq, Client.bind_of_ok (Client.issue_done_ok.2 ⟨headers, hseek, rfl⟩),
    Client.bind_of_ok hopen]
  obtain ⟨more, hasked⟩ := readOn_asked f (.ofSession f.orderer.id
    (f.orderer.deliver (start.calls f.orderer.id .deliver))) envelope q
  refine ⟨q.clock, more, hasked.trans ?_⟩
  rw [show q.asked = _ from hopened, List.append_assoc]
  rfl

/-- The calls of a request for one block: a stream is opened, the request is sent, a block and what
follows it are received, and the stream is closed. -/
def IsRequest (node : NodeId) (channelId : String) (position : SeekPosition)
    (asked : List Asked) : Prop :=
  ∃ envelope, envelope.Seeks channelId position ∧
    asked.map (fun a => (a.node, a.call)) = [(node, .openDeliver), (node, .send envelope),
      (node, .receive), (node, .receive), (node, .close)]

theorem readBlock_done_ok {address : String} {s : Stream DeliverResponse}
    (h : readBlock address s envelope p = .done (.ok block) q) :
    ∃ t t', q.asked = p.asked ++ [⟨p.clock, s.node, .send envelope⟩, ⟨t, s.node, .receive⟩,
      ⟨t', s.node, .receive⟩] := by
  obtain ⟨_, p₁, hsend, hrest⟩ := Client.bind_done_ok.1 h
  obtain ⟨⟨response, next⟩, p₂, hreceive, hanswer⟩ := Client.bind_done_ok.1 hrest
  have hsent := send_asked s envelope p
  have hreceived := receive_asked s p₁
  rw [hsend] at hsent
  rw [hreceive] at hreceived
  obtain ⟨_, _, _, -, -, -, hpair, -⟩ := receive_done_ok.1 hreceive
  obtain ⟨-, rfl⟩ := Prod.mk.inj hpair
  cases response with
  | block _ =>
    obtain ⟨result, p₃, hfollow, hreturn⟩ := Client.attempt_bind_done.1 hanswer
    have hfollowed := receive_asked s.next p₂
    rw [hfollow] at hfollowed
    cases hreturn
    refine ⟨p₁.clock, p₂.clock, hfollowed.trans ?_⟩
    rw [show p₂.asked = _ from hreceived, show p₁.asked = _ from hsent]
    simp only [List.append_assoc, List.cons_append, List.nil_append]
    rfl
  | status _ => cases hanswer
  | filteredBlock _ => cases hanswer

theorem readOn_done_ok {s : Stream DeliverResponse}
    (h : f.readOn s envelope p = .done (.ok block) q) :
    ∃ t t' t'', q.asked = p.asked ++ [⟨p.clock, s.node, .send envelope⟩, ⟨t, s.node, .receive⟩,
      ⟨t', s.node, .receive⟩, ⟨t'', s.node, .close⟩] := by
  obtain ⟨result, p₁, hread, hrest⟩ := Client.attempt_bind_done.1 h
  obtain ⟨closed, p₂, hclose, hreturn⟩ := Client.attempt_bind_done.1 hrest
  obtain ⟨rfl, rfl⟩ := Client.lift_done_ok.1 hreturn
  obtain ⟨r, hdone, rfl⟩ := Client.within_done_ok.1 hread
  obtain ⟨t, t', hasked⟩ := readBlock_done_ok hdone
  have hclosed := close_asked s { r with limit := p.limit }
  rw [hclose] at hclosed
  refine ⟨t, t', r.clock, hclosed.trans ?_⟩
  rw [show ({ r with limit := p.limit } : Progress).asked = _ from hasked]
  simp only [List.append_assoc, List.cons_append, List.nil_append]

/-- A fetch that succeeds is one request. -/
theorem fetch_done_ok (h : f.fetch position p = .done (.ok block) q) :
    ∃ asked, q.asked = p.asked ++ asked ∧ IsRequest f.orderer.id f.channelId position asked := by
  rw [fetch_eq] at h
  obtain ⟨envelope, p₁, hissue, hrest⟩ := Client.bind_done_ok.1 h
  obtain ⟨headers, hseek, rfl⟩ := Client.issue_done_ok.1 hissue
  obtain ⟨s, p₂, hopen, hread⟩ := Client.bind_done_ok.1 hrest
  have hopened := openDeliver_asked f.orderer { p with headers := headers }
  rw [hopen] at hopened
  have hnode : s.node = f.orderer.id := by
    obtain ⟨-, -, rfl, -⟩ := Client.openSession_done_ok.1 hopen
    rfl
  obtain ⟨t, t', t'', hasked⟩ := readOn_done_ok hread
  rw [show p₂.asked = _ from hopened, List.append_assoc, hnode] at hasked
  exact ⟨_, hasked, envelope, seeks_of_seekEnvelope hseek, rfl⟩

end Calls

/-! ## The search -/

/-- The orderer opens every stream.  For each request that the client has made since a certain
state, it takes the request, gives the block that is meant, and after that a status or whatever
else, all in time; the chain may be another one at each request. -/
structure Orderer.ServesChains (o : Orderer) (p : Progress) (asked : List Asked)
    (channelId : String) (milliseconds : Nat) (chains : List (List Link)) : Prop where
  opens : ∀ number, (o.deliver number).opening.outcome = .answered ()
  serves : ∀ sought place envelope position links block,
    envelopesIn asked = envelopesIn p.asked ++ sought → sought[place]? = some envelope →
    envelope.Seeks channelId position → chains[place]? = some links →
    blockAt? links position = some block →
    (Stream.ofSession o.id (o.deliver (p.calls o.id .deliver + place))).Serves p.lastTx block
      milliseconds

section Search

variable {f : BlockFetcher} {p q : Progress} {asked : List Asked} {chains : List (List Link)}

theorem IsRequest.envelopesIn_eq {node : NodeId} {channelId : String} {position : SeekPosition}
    (h : IsRequest node channelId position asked) : ∃ envelope, envelopesIn asked = [envelope] := by
  obtain ⟨envelope, -, hcalls⟩ := h
  have hmap : envelopesIn asked =
      (asked.map fun a => (a.node, a.call)).filterMap (·.2.envelope?) := by
    rw [List.filterMap_map]
    rfl
  exact ⟨envelope, by rw [hmap, hcalls]; rfl⟩

/-- A request in its turn is served with the block that it means. -/
theorem fetch_of_servesChains (earlier : List Envelope) (links : List Link) (block : Block)
    {more : List Asked} {position : SeekPosition} (hsigner : f.signer.Total)
    (h : f.orderer.ServesChains p asked f.channelId f.timeoutMs chains) (hlimit : q.limit = none)
    (hlastTx : q.lastTx = p.lastTx)
    (hcalls : q.calls f.orderer.id .deliver = p.calls f.orderer.id .deliver + earlier.length)
    (hearlier : envelopesIn q.asked = envelopesIn p.asked ++ earlier)
    (hmore : asked = (f.fetch position q).progress.asked ++ more)
    (hlinks : chains[earlier.length]? = some links)
    (hblock : blockAt? links position = some block) :
    ∃ r requested, f.fetch position q = .done (.ok block) r ∧ (f.fetchedAt q).Passes r ∧
      r.asked = q.asked ++ requested ∧
      IsRequest f.orderer.id f.channelId position requested := by
  obtain ⟨envelope, hseek⟩ := hsigner.signedEnvelope .deliverSeekInfo f.channelId
    (toWire (SeekInfo.single position f.bestEffort)) f.tlsCertHash q.headers
  obtain ⟨t, later, hprefix⟩ := fetch_asked hseek hlimit (h.opens _)
  have hsought : envelopesIn asked =
      envelopesIn p.asked ++ (earlier ++ envelope :: envelopesIn (later ++ more)) := by
    rw [hmore, hprefix, List.append_assoc, envelopesIn_append, hearlier, List.append_assoc]
    rfl
  have hplace : (earlier ++ envelope :: envelopesIn (later ++ more))[earlier.length]? =
      some envelope := by
    rw [List.getElem?_append_right le_rfl, Nat.sub_self]
    rfl
  have hserves := h.serves _ _ envelope position links block hsought hplace
    (seeks_of_seekEnvelope hseek) hlinks hblock
  rw [← hcalls, ← hlastTx] at hserves
  obtain ⟨r, hfetch, hpasses⟩ := fetch_of_delivers hsigner hlimit ⟨h.opens _, hserves⟩ position
  obtain ⟨requested, hasked, hrequest⟩ := fetch_done_ok hfetch
  exact ⟨r, requested, hfetch, hpasses, hasked, hrequest⟩

/-- What the search does with the newest block. -/
def BlockFetcher.configFrom (f : BlockFetcher) (newest : Block) : Client ConfigEnvelope :=
  (liftM newest.lastConfigIndex : Client UInt64) >>= fun index =>
  (if index = newest.header.number then pure newest else f.specified index : Client Block) >>=
    fun block => liftM block.configEnvelope

theorem config_eq (f : BlockFetcher) : f.config = f.fetch .newest >>= f.configFrom := by
  rw [BlockFetcher.config, BlockFetcher.configBlock, Client.bind_assoc]
  refine congrArg _ (funext fun newest => ?_)
  rw [Client.bind_assoc]
  rfl

theorem configFrom_asksOnly (f : BlockFetcher) (newest : Block) :
    Client.AsksOnly NoBroadcast (f.configFrom newest) := by
  refine .bind (.lift _) fun index => .bind ?_ fun block => .lift _
  split
  · exact .pure _
  · exact fetch_asksOnly f _

theorem configFrom_of_newest {block : Block} {index : UInt64} {config : ConfigEnvelope}
    (hindex : block.lastConfigIndex = .ok index) (hnumber : index = block.header.number)
    (hconfig : block.configEnvelope = .ok config) :
    f.configFrom block p = .done (.ok config) p := by
  rw [BlockFetcher.configFrom, hindex]
  refine Client.bind_done_ok.2 ⟨index, p, rfl, Client.bind_done_ok.2 ⟨block, p, ?_, ?_⟩⟩
  · rw [if_pos hnumber]
    rfl
  · rw [hconfig]
    rfl

theorem configFrom_of_earlier {newest block : Block} {index : UInt64} {config : ConfigEnvelope}
    (hindex : newest.lastConfigIndex = .ok index) (hnumber : index ≠ newest.header.number)
    (hfetch : f.fetch (.specified index) p = .done (.ok block) q)
    (hconfig : block.configEnvelope = .ok config) :
    f.configFrom newest p = .done (.ok config) q := by
  rw [BlockFetcher.configFrom, hindex]
  refine Client.bind_done_ok.2 ⟨index, p, rfl, Client.bind_done_ok.2 ⟨block, q, ?_, ?_⟩⟩
  · rw [if_neg hnumber]
    exact hfetch
  · rw [hconfig]
    rfl

/-- The search goes on to a block that is not the newest one. -/
theorem configFrom_asked {newest : Block} {index : UInt64}
    (hindex : newest.lastConfigIndex = .ok index) (hnumber : index ≠ newest.header.number)
    (p : Progress) :
    (f.configFrom newest p).progress.asked =
      (f.fetch (.specified index) p).progress.asked := by
  rw [BlockFetcher.configFrom, hindex]
  change (((if index = newest.header.number then pure newest else f.specified index :
    Client Block) >>= fun block => liftM block.configEnvelope) p).progress.asked = _
  rw [if_neg hnumber]
  exact Client.bind_asked_eq _ (fun _ _ => rfl) p

/-- The configuration in force is found.  An orderer serves the blocks of a chain, which may grow
after the first request.  The search gives the configuration of the latest block that was a
configuration block at the first request.  It is one request if this is the newest block, and two
otherwise; each request opens one stream and closes it once. -/
theorem config_of_chain {links more : List Link} (hsigner : f.signer.Total)
    (hlimit : p.limit = none) (hne : links ≠ []) (hchain : ValidChain (links ++ more))
    (hserves : f.orderer.ServesChains p (f.config p).progress.asked f.channelId f.timeoutMs
      [links, links ++ more]) :
    ∃ newest latest config q, links.getLast? = some newest ∧ latestConfig? links = some latest ∧
      latest.config? = some config ∧ f.config p = .done (.ok config) q ∧
      if newest.config?.isSome then
        ∃ asked, q.asked = p.asked ++ asked ∧ IsRequest f.orderer.id f.channelId .newest asked
      else
        ∃ asked asked', q.asked = p.asked ++ (asked ++ asked') ∧
          IsRequest f.orderer.id f.channelId .newest asked ∧
          IsRequest f.orderer.id f.channelId (.specified latest.number) asked' := by
  obtain ⟨earlier, newest, rfl⟩ := (List.eq_nil_or_concat' links).resolve_left hne
  have hnewest : newest ∈ (earlier ++ [newest]) ++ more :=
    List.mem_append_left _ (List.mem_append_right _ (List.mem_singleton_self newest))
  obtain ⟨latest, hlatest, hrecords⟩ := hchain.records earlier newest (List.prefix_append _ _)
  obtain ⟨hmem, config, hconfig⟩ := latestConfig?_eq_some hlatest
  have hmem' : latest ∈ (earlier ++ [newest]) ++ more := List.mem_append_left _ hmem
  have hindex := Block.lastConfigIndex_of_records hrecords
  have henvelope := Block.configEnvelope_of_holds (hchain.holds latest hmem' config hconfig)
  -- The first request is for the newest block.
  obtain ⟨continued, hcontinued, -⟩ :=
    Client.bind_asked (f.fetch .newest) (configFrom_asksOnly f) p
  rw [← config_eq] at hcontinued
  obtain ⟨p₁, asked, hfirst, hpasses, hasked, hrequest⟩ :=
    fetch_of_servesChains [] (earlier ++ [newest]) newest.block hsigner hserves hlimit rfl rfl
      (List.append_nil _).symm hcontinued rfl (by rw [blockAt?, List.getLast?_concat]; rfl)
  have hrun : f.config p = f.configFrom newest.block p₁ := by
    rw [config_eq]
    exact Client.bind_of_ok hfirst
  refine ⟨newest, latest, config, ?_⟩
  by_cases hself : newest.config?.isSome = true
  · rw [latestConfig?_append, if_pos hself] at hlatest
    cases hlatest
    refine ⟨p₁, List.getLast?_concat, ?_, hconfig, ?_, ?_⟩
    · rw [latestConfig?_append, if_pos hself]
    · rw [hrun]
      exact configFrom_of_newest hindex rfl henvelope
    · rw [if_pos hself]
      exact ⟨asked, hasked, hrequest⟩
  · have hother : latest.number ≠ newest.number := by
      intro hnumber
      rw [hchain.eq_of_number_eq hmem' hnewest hnumber] at hconfig
      exact hself (by rw [hconfig]; rfl)
    -- The second request is for the block that the newest one records.
    obtain ⟨envelope, hsent⟩ := hrequest.envelopesIn_eq
    have hcalls : p₁.calls f.orderer.id .deliver = p.calls f.orderer.id .deliver + 1 := by
      rw [hpasses.calls]
      exact if_pos ⟨rfl, rfl⟩
    have hearlier : envelopesIn p₁.asked = envelopesIn p.asked ++ [envelope] := by
      rw [hasked, envelopesIn_append, hsent]
    have hmore : (f.config p).progress.asked =
        (f.fetch (.specified latest.number) p₁).progress.asked ++ [] := by
      rw [hrun, List.append_nil]
      exact configFrom_asked hindex hother p₁
    obtain ⟨q, asked', hsecond, -, hasked', hrequest'⟩ :=
      fetch_of_servesChains [envelope] (earlier ++ [newest] ++ more) latest.block hsigner hserves
        (hpasses.limit.trans hlimit) hpasses.lastTx hcalls hearlier hmore rfl
        (hchain.blockAt?_specified hmem')
    refine ⟨q, List.getLast?_concat, hlatest, hconfig, ?_, ?_⟩
    · rw [hrun]
      exact configFrom_of_earlier hindex hother hsecond henvelope
    · rw [if_neg hself]
      refine ⟨asked, asked', ?_, hrequest, hrequest'⟩
      rw [hasked', hasked, List.append_assoc]

end Search

/-! ### A chain that grows -/

/-- The block that an envelope requests. -/
def Envelope.sought? (envelope : Envelope) : Option SeekPosition := do
  let payload ← (decodeMessage Payload envelope.payload).toOption
  let seek ← (decodeMessage SeekInfo payload.data).toOption
  return seek.start

theorem Envelope.Seeks.sought?_eq {envelope : Envelope} {channelId : String}
    {position : SeekPosition} (h : envelope.Seeks channelId position)
    (hlength : envelope.payload.length < 2 ^ 32) : envelope.sought? = some position := by
  obtain ⟨time, tlsCertHash, header, bestEffort, hpayload⟩ := h
  rw [hpayload] at hlength
  have hdata : (toWire (SeekInfo.single position bestEffort)).length < 2 ^ 32 :=
    (Schema.fits_of_length rfl hlength).2.1
  rw [Envelope.sought?, hpayload, decodeMessage_of_length rfl rfl hlength]
  change ((decodeMessage SeekInfo (toWire (SeekInfo.single position bestEffort))).toOption >>=
    fun seek => some seek.start) = _
  rw [decodeMessage_of_length rfl rfl hdata]
  rfl

/-- A block that records the first one, in the slot of older ordering services. -/
def plainBlock (number : UInt64) : Block where
  header := ⟨number, [], []⟩
  data := ⟨[]⟩
  metadata := ⟨[[], toWire ({ value := toWire (⟨0⟩ : LastConfig), signatures := [] } : Metadata)]⟩

def plainLink (number : UInt64) : Link := ⟨plainBlock number, none⟩

def emptyConfigLink : Link := ⟨emptyConfigBlock, some ⟨emptyConfig, none⟩⟩

/-- An orderer that gives the second block first, and then the first one. -/
def growingOrderer : Orderer :=
  { steadyOrderer with deliver := fun number => {
      receiving := [
        .now fun _ => .block (if number = 0 then plainBlock 1 else emptyConfigBlock),
        .now fun _ => .status .success] } }

def growingFetcher : BlockFetcher where
  orderer := growingOrderer
  signer := neutralSigner "Org1MSP"
  channelId := "ch"

theorem growingOrderer_serves (number : Nat) :
    (Stream.ofSession growingOrderer.id (growingOrderer.deliver number)).Serves ""
      (if number = 0 then plainBlock 1 else emptyConfigBlock) growingFetcher.timeoutMs := by
  have hreceiving : (Stream.ofSession growingOrderer.id
      (growingOrderer.deliver number)).next.receiving = [.now fun _ => .status .success] := rfl
  have hnext : (Stream.ofSession growingOrderer.id
      (growingOrderer.deliver number)).next.Answers 0 := .message hreceiving fun h => nomatch h
  exact ⟨rfl, ⟨_, _, _, 0, rfl, rfl, rfl, hnext, Nat.zero_le _⟩, fun h => nomatch h⟩

theorem plainBlock_records (number : UInt64) : (plainBlock number).Records 0 :=
  .inOwnSlot (.empty rfl) rfl (decodeMessage_of_length rfl rfl (by decide +kernel))
    (decodeMessage_of_length rfl rfl (by decide +kernel)) rfl

theorem validChain_emptyConfigLink : ValidChain [emptyConfigLink] := by
  have hrecords : emptyConfigBlock.Records 0 := by
    have hrecorded : decodeMessage OrdererBlockMetadata (toWire (⟨⟨0⟩, []⟩ :
        OrdererBlockMetadata)) = .ok ⟨⟨0⟩, []⟩ :=
      decodeMessage_of_length rfl rfl (by decide +kernel)
    exact .withSignatures rfl (decodeMessage_of_length rfl rfl (by decide +kernel))
      (by decide +kernel) hrecorded rfl
  have hholds : emptyConfigBlock.Holds ⟨emptyConfig, none⟩ := by
    refine ⟨_, [], _, _, _, _, rfl, decodeMessage_of_length rfl rfl ?_,
      decodeMessage_of_length rfl rfl ?_, rfl, decodeMessage_of_length rfl rfl ?_, rfl,
      decodeMessage_of_length rfl rfl ?_⟩
    all_goals decide +kernel
  refine ValidChain.nil.concat emptyConfigLink (fun _ h => nomatch h) rfl hrecords ?_
  intro config hconfig
  cases hconfig
  exact hholds

theorem validChain_plainLinks : ValidChain [emptyConfigLink, plainLink 1, plainLink 2] := by
  have hplain : ∀ number config, (plainLink number).config? = some config →
      (plainBlock number).Holds config := fun _ _ h => nomatch h
  have hsecond := validChain_emptyConfigLink.concat (plainLink 1)
    (fun last hlast => by cases hlast; rfl) rfl (plainBlock_records 1) (hplain 1)
  exact hsecond.concat (plainLink 2) (fun last hlast => by cases hlast; rfl) rfl
    (plainBlock_records 2) (hplain 2)

theorem growingOrderer_servesChains :
    growingOrderer.ServesChains beginning (growingFetcher.config beginning).progress.asked "ch"
      growingFetcher.timeoutMs
      [[emptyConfigLink, plainLink 1], [emptyConfigLink, plainLink 1, plainLink 2]] := by
  refine ⟨fun _ => rfl, ?_⟩
  intro sought place envelope position links block hsought henvelope hseeks hlinks hblock
  have hcomputed : (envelopesIn (growingFetcher.config beginning).progress.asked).map
      (fun envelope => (envelope.sought?, decide (envelope.payload.length < 2 ^ 32))) =
        [(some .newest, true), (some (.specified 0), true)] := by
    decide +kernel
  rw [hsought] at hcomputed
  have hat := congrArg (·[place]?) hcomputed
  rw [List.getElem?_map] at hat
  change (sought[place]?).map _ = _ at hat
  rw [henvelope] at hat
  match place, hlinks with
  | 0, hlinks =>
    obtain ⟨hposition, hlength⟩ := Prod.mk.inj (Option.some.inj hat)
    cases (hseeks.sought?_eq (of_decide_eq_true hlength)).symm.trans hposition
    cases hlinks
    cases hblock
    exact growingOrderer_serves 0
  | 1, hlinks =>
    obtain ⟨hposition, hlength⟩ := Prod.mk.inj (Option.some.inj hat)
    cases (hseeks.sought?_eq (of_decide_eq_true hlength)).symm.trans hposition
    cases hlinks
    cases hblock
    exact growingOrderer_serves 1

/-- A third block comes between the two requests. -/
theorem config_of_chain_grown :
    growingOrderer.ServesChains beginning (growingFetcher.config beginning).progress.asked "ch"
      growingFetcher.timeoutMs
      [[emptyConfigLink, plainLink 1], [emptyConfigLink, plainLink 1, plainLink 2]] ∧
    ∃ q asked asked', growingFetcher.config beginning = .done (.ok ⟨emptyConfig, none⟩) q ∧
      q.asked = asked ++ asked' ∧ IsRequest growingOrderer.id "ch" .newest asked ∧
      IsRequest growingOrderer.id "ch" (.specified 0) asked' := by
  have hsigner : growingFetcher.signer.Total := ⟨fun _ => ⟨_, rfl⟩, fun _ => ⟨_, rfl⟩⟩
  have hchain : ValidChain ([emptyConfigLink, plainLink 1] ++ [plainLink 2]) :=
    validChain_plainLinks
  obtain ⟨newest, latest, config, q, hnewest, hlatest, hconfig, hrun, hasked⟩ :=
    config_of_chain hsigner rfl (List.cons_ne_nil _ _) hchain growingOrderer_servesChains
  cases hnewest
  cases hlatest
  cases hconfig
  obtain ⟨asked, asked', hasked⟩ := hasked
  exact ⟨growingOrderer_servesChains, q, asked, asked', hrun, hasked⟩

end LedgerClient
