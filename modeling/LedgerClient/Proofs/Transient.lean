import LedgerClient.Chaincode.Invocation
import LedgerClient.Proofs.Base64
import LedgerClient.Proofs.Json.Objects
import LedgerClient.Proofs.Wire.Canonical
import Mathlib.Data.List.Forall2
import Mathlib.Data.Option.Basic
/-!
# Transient data

The text of transient data is an object of Base64 texts.  What it is read as depends on the last
value of each key only, and is nothing else than what these values are the texts of.

* `transientOfJson_ok_iff`: the map that a text of an object is read as.
* `decodeTransient_error`: the first field in key order that is no Base64.
* `transientOfJson_exact`: both, and that different texts are different maps.
-/

namespace LedgerClient

open Json (IsObject)

variable {members members' : List (String × String)} {text text' key : String} {d d' : Dict Bytes}

/-- A text is the Base64 text of these bytes. -/
def IsBase64 (text : String) (bs : Bytes) : Prop := Utf8.encode text = Base64.encode bs

/-- The last value that the members have for a key. -/
def lastUnder (members : List (String × String)) (key : String) : Option String :=
  (members.reverse.find? fun e => e.1 = key).map (·.2)

/-- The value of the key is the Base64 text of no bytes. -/
def Spoils (members : List (String × String)) (key : String) : Prop :=
  ∃ value, lastUnder members key = some value ∧ ∀ bs, ¬IsBase64 value bs

theorem decode_ok_iff_isBase64 {bs : Bytes} :
    Base64.decode (Utf8.encode text) = .ok bs ↔ IsBase64 text bs :=
  Base64.decode_ok_iff

theorem IsBase64.bytes_unique {bs bs' : Bytes} (h : IsBase64 text bs) (h' : IsBase64 text bs') :
    bs = bs' := by
  have hdecode := (decode_ok_iff_isBase64.2 h).symm.trans (decode_ok_iff_isBase64.2 h')
  exact Except.ok.inj hdecode

theorem IsBase64.text_unique {bs : Bytes} (h : IsBase64 text bs) (h' : IsBase64 text' bs) :
    text = text' := by
  have hdecode := Utf8.decode_encode text
  rw [h.trans h'.symm, Utf8.decode_encode] at hdecode
  exact (Except.ok.inj hdecode).symm

/-- The members list the entries of a map, with the Base64 texts of its values, in any order. -/
structure Lists (members : List (String × String)) (d : Dict Bytes) : Prop where
  keys : ∀ key ∈ d.keys, key ∈ members.map (·.1)
  values : ∀ e ∈ members, ∃ bs, d.get? e.1 = some bs ∧ IsBase64 e.2 bs

/-! ## Fields in key order -/

section Fields

variable {fields : List (String × String)} {decoded : List (String × Bytes)}

theorem decodeTransient_ok (h : decodeTransient fields = .ok decoded) :
    fields.Forall₂ (fun e x => x.1 = e.1 ∧ IsBase64 e.2 x.2) decoded := by
  induction fields generalizing decoded with
  | nil =>
    cases h
    exact .nil
  | cons e fields ih =>
    rw [decodeTransient] at h
    cases hdecode : Base64.decode (Utf8.encode e.2) with
    | error fault =>
      simp only [hdecode] at h
      cases h
    | ok bytes =>
      simp only [hdecode] at h
      obtain ⟨rest, hrest, h⟩ := except_bind_ok.1 h
      cases h
      exact .cons ⟨rfl, decode_ok_iff_isBase64.1 hdecode⟩ (ih hrest)

/-- The first field that is no Base64 is reported. -/
theorem decodeTransient_error {e : ClientError} (h : decodeTransient fields = .error e) :
    ∃ before key value after fault, fields = before ++ (key, value) :: after ∧
      (∀ x ∈ before, ∃ bs, IsBase64 x.2 bs) ∧
      Base64.decode (Utf8.encode value) = .error fault ∧
      e = .invalidArgument s!"transient field {key}: {fault.message}" := by
  induction fields with
  | nil => cases h
  | cons x fields ih =>
    obtain ⟨key, value⟩ := x
    rw [decodeTransient] at h
    cases hdecode : Base64.decode (Utf8.encode value) with
    | error fault =>
      simp only [hdecode] at h
      cases h
      exact ⟨[], key, value, fields, fault, rfl, fun x hx => (nomatch hx), hdecode, rfl⟩
    | ok bytes =>
      simp only [hdecode] at h
      obtain hrest | ⟨rest, -, h⟩ := except_bind_error.1 h
      · obtain ⟨before, key', value', after, fault, rfl, hbefore, hfault, he⟩ := ih hrest
        refine ⟨(key, value) :: before, key', value', after, fault, rfl, fun x hx => ?_, hfault, he⟩
        rcases List.mem_cons.1 hx with rfl | hx
        · exact ⟨bytes, decode_ok_iff_isBase64.1 hdecode⟩
        · exact hbefore x hx
      · cases h

theorem not_isBase64_of_error {fault : Base64.Fault}
    (h : Base64.decode (Utf8.encode text) = .error fault) (bs : Bytes) : ¬IsBase64 text bs := by
  intro hbs
  cases h.symm.trans (decode_ok_iff_isBase64.2 hbs)

/-- Fields that are read keep their keys. -/
theorem lookupEntry_rel (h : fields.Forall₂ (fun e x => x.1 = e.1 ∧ IsBase64 e.2 x.2) decoded)
    (key : String) :
    Option.Rel IsBase64 (Dict.lookupEntry key fields) (Dict.lookupEntry key decoded) := by
  induction h with
  | nil => exact .none
  | @cons e x _ _ hx _ ih =>
    obtain ⟨hkey, hbytes⟩ := hx
    obtain ⟨k, v⟩ := e
    obtain ⟨k', bs⟩ := x
    obtain rfl : k' = k := hkey
    rw [Dict.lookupEntry, Dict.lookupEntry]
    split
    · exact .some hbytes
    · exact ih

theorem keys_of_forall₂ (h : fields.Forall₂ (fun e x => x.1 = e.1 ∧ IsBase64 e.2 x.2) decoded) :
    decoded.map (·.1) = fields.map (·.1) := by
  induction h with
  | nil => rfl
  | cons hx _ ih => rw [List.map_cons, List.map_cons, hx.1, ih]

end Fields

/-! ## Texts -/

theorem mem_of_lastUnder {value : String} (h : lastUnder members key = some value) :
    (key, value) ∈ members := by
  obtain ⟨e, hfound, rfl⟩ := Option.map_eq_some_iff.1 h
  have hkey : e.1 = key := by simpa only [decide_eq_true_eq] using List.find?_some hfound
  exact hkey ▸ List.mem_reverse.1 (List.mem_of_find?_eq_some hfound)

theorem not_mem_of_lastUnder (h : lastUnder members key = none) : key ∉ members.map (·.1) := by
  intro hmem
  obtain ⟨e, he, rfl⟩ := List.mem_map.1 hmem
  have hnone := List.find?_eq_none.1 (Option.map_eq_none_iff.1 h) e (List.mem_reverse.2 he)
  exact hnone (decide_eq_true rfl)

theorem transientOfJson_eq (h : IsObject text.toList members) :
    transientOfJson text = decodeTransient (Dict.ofList members).entries >>= fun decoded =>
      .ok (.ofList decoded) := by
  rw [transientOfJson, Json.fromJsonText_iff.2 ⟨members, h, rfl⟩]
  rfl

theorem exists_isObject (h : transientOfJson text = .ok d) :
    ∃ members, IsObject text.toList members := by
  obtain ⟨fields, hfields, -⟩ := except_bind_ok.1 h
  obtain ⟨members, hmembers, -⟩ := Json.fromJsonText_iff.1 (mapError_ok_iff.1 hfields)
  exact ⟨members, hmembers⟩

/-- Each key has the bytes of its last value, and no other key has any. -/
theorem rel_of_ok (h : IsObject text.toList members) (hok : transientOfJson text = .ok d)
    (key : String) : Option.Rel IsBase64 (lastUnder members key) (d.get? key) := by
  rw [transientOfJson_eq h] at hok
  obtain ⟨decoded, hdecoded, heq⟩ := except_bind_ok.1 hok
  cases heq
  have hfields := decodeTransient_ok hdecoded
  have hascending : decoded.Pairwise fun a b => a.1 < b.1 := by
    rw [← List.pairwise_map, keys_of_forall₂ hfields]
    exact List.pairwise_map.2 (Dict.ofList members).ascending
  have hlast : (Dict.ofList members).get? key = lastUnder members key := Dict.get?_ofList members key
  have hrel := lookupEntry_rel hfields key
  rw [← Dict.entries_ofList hascending] at hrel
  rw [← hlast]
  exact hrel

/-- The smallest key that spoils the text is reported. -/
theorem spoils_of_error (h : IsObject text.toList members) {e : ClientError}
    (herror : transientOfJson text = .error e) : ∃ key value fault,
      lastUnder members key = some value ∧ Base64.decode (Utf8.encode value) = .error fault ∧
      e = .invalidArgument s!"transient field {key}: {fault.message}" ∧
      ∀ key', Spoils members key' → key' ≠ key → Utf8.encode key < Utf8.encode key' := by
  rw [transientOfJson_eq h] at herror
  have hlast (key : String) : (Dict.ofList members).get? key = lastUnder members key :=
    Dict.get?_ofList members key
  obtain herror | ⟨decoded, -, herror⟩ := except_bind_error.1 herror
  · obtain ⟨before, key, value, after, fault, hentries, hbefore, hfault, he⟩ :=
      decodeTransient_error herror
    have hascending := (Dict.ofList members).ascending
    have hmem (x : String × String) : x ∈ (Dict.ofList members).entries ↔
        lastUnder members x.1 = some x.2 := by rw [← hlast, Dict.get?_eq_some_iff]
    rw [hentries] at hascending hmem
    refine ⟨key, value, fault, (hmem (key, value)).1 (by simp), hfault, he, ?_⟩
    rintro key' ⟨value', hvalue', hbad⟩ hne
    rw [Utf8.encode_lt_encode_iff]
    rcases List.mem_append.1 ((hmem (key', value')).2 hvalue') with hin | hin
    · obtain ⟨bs, hbs⟩ := hbefore _ hin
      exact absurd hbs (hbad bs)
    · rcases List.mem_cons.1 hin with heq | hin
      · exact absurd (congrArg Prod.fst heq) hne
      · have hafter := (List.pairwise_append.1 hascending).2.1
        exact (List.pairwise_cons.1 hafter).1 _ hin
  · cases herror

theorem exists_ok_iff (h : IsObject text.toList members) :
    (∃ d, transientOfJson text = .ok d) ↔ ∀ key, ¬Spoils members key := by
  constructor
  · rintro ⟨d, hok⟩ key ⟨value, hvalue, hbad⟩
    have hrel := rel_of_ok h hok key
    rw [hvalue] at hrel
    generalize d.get? key = found at hrel
    cases hrel with
    | some hbytes => exact hbad _ hbytes
  · intro hgood
    cases hread : transientOfJson text with
    | ok d => exact ⟨d, rfl⟩
    | error e =>
      obtain ⟨key, value, fault, hvalue, hfault, -⟩ := spoils_of_error h hread
      exact absurd ⟨value, hvalue, not_isBase64_of_error hfault⟩ (hgood key)

theorem transientOfJson_of_lists (h : IsObject text.toList members) (hlists : Lists members d) :
    transientOfJson text = .ok d := by
  have hgood : ∀ key, ¬Spoils members key := by
    rintro key ⟨value, hvalue, hbad⟩
    obtain ⟨bs, -, hbs⟩ := hlists.values _ (mem_of_lastUnder hvalue)
    exact hbad bs hbs
  obtain ⟨d', hok⟩ := (exists_ok_iff h).2 hgood
  rw [hok]
  refine congrArg Except.ok (Dict.ext_get? fun key => ?_)
  have hrel := rel_of_ok h hok key
  generalize d'.get? key = found at hrel
  cases hlast : lastUnder members key with
  | none =>
    rw [hlast] at hrel
    cases hrel
    refine (Option.eq_none_iff_forall_ne_some.2 fun bs hd => ?_).symm
    exact not_mem_of_lastUnder hlast (hlists.keys key (Dict.mem_keys_iff.2 ⟨bs, hd⟩))
  | some value =>
    obtain ⟨bs, hd, hbs⟩ := hlists.values _ (mem_of_lastUnder hlast)
    rw [hlast] at hrel
    cases hrel with
    | some hbytes => rw [hd, hbytes.bytes_unique hbs]

/-- A map has the last values of one text only. -/
theorem lastUnder_unique (h : IsObject text.toList members) (h' : IsObject text'.toList members')
    (hok : transientOfJson text = .ok d) (hok' : transientOfJson text' = .ok d) (key : String) :
    lastUnder members key = lastUnder members' key := by
  have hrel := rel_of_ok h hok key
  have hrel' := rel_of_ok h' hok' key
  generalize d.get? key = found at hrel hrel'
  generalize lastUnder members key = last at hrel
  generalize lastUnder members' key = last' at hrel'
  cases hrel with
  | none =>
    cases hrel'
    rfl
  | some hbytes =>
    cases hrel' with
    | some hbytes' => rw [hbytes.text_unique hbytes']

/-- Transient data is read exactly.  A text of an object that lists the entries of a map is read as
this map.  The text of an object of strings is accepted exactly if the last value of each key is the
Base64 text of some bytes; otherwise the first key in byte order whose last value is not is reported.
Only such texts are accepted, and if the last values of two of them differ, so do the maps. -/
theorem transientOfJson_exact (text : String) :
    (∀ d members, IsObject text.toList members → Lists members d →
      transientOfJson text = .ok d) ∧
    (∀ members, IsObject text.toList members →
      ((∃ d, transientOfJson text = .ok d) ↔ ∀ key, ¬Spoils members key) ∧
      ∀ e, transientOfJson text = .error e → ∃ key value fault,
        Spoils members key ∧ lastUnder members key = some value ∧
        Base64.decode (Utf8.encode value) = .error fault ∧
        e = .invalidArgument s!"transient field {key}: {fault.message}" ∧
        ∀ key', Spoils members key' → key' ≠ key → Utf8.encode key < Utf8.encode key') ∧
    (∀ d, transientOfJson text = .ok d → ∃ members, IsObject text.toList members) ∧
    ∀ text' members members' d d', IsObject text.toList members → IsObject text'.toList members' →
      transientOfJson text = .ok d → transientOfJson text' = .ok d' →
      (∃ key, lastUnder members key ≠ lastUnder members' key) → d ≠ d' := by
  refine ⟨fun d members h hlists => transientOfJson_of_lists h hlists,
    fun members h => ⟨exists_ok_iff h, fun e he => ?_⟩, fun d hok => exists_isObject hok, ?_⟩
  · obtain ⟨key, value, fault, hvalue, hfault, hmessage, hleast⟩ := spoils_of_error h he
    exact ⟨key, value, fault, ⟨value, hvalue, not_isBase64_of_error hfault⟩, hvalue, hfault,
      hmessage, hleast⟩
  · rintro text' members members' d d' h h' hok hok' ⟨key, hne⟩ rfl
    exact hne (lastUnder_unique h h' hok hok' key)

/-- A letter is written by its number and by itself, with the texts of other bytes, and with a text
in which bits are left over. -/
theorem transientOfJson_exact_accents :
    let byNumber := "\x7b\"\\u00E9\":\"QQ==\"\x7d"
    let byItself := "\x7b\"é\":\"QUI=\"\x7d"
    let spoilt := "\x7b\"é\":\"QR==\"\x7d"
    transientOfJson byNumber = .ok (.ofList [("é", [0x41])]) ∧
      (∃ d, transientOfJson byItself = .ok d ∧ d ≠ .ofList [("é", [0x41])]) ∧
      transientOfJson spoilt =
        .error (.invalidArgument "transient field é: Invalid last symbol 82, offset 1.") := by
  intro byNumber byItself spoilt
  have hzero : Json.HexDigit '0' 0 := .inl (by decide)
  have hfourteen : Json.HexDigit 'E' 14 := .inr (by decide)
  have hnine : Json.HexDigit '9' 9 := .inl (by decide)
  have hdigits : Json.FourDigits ['0', '0', 'E', '9'] 'é'.toNat :=
    .mk hzero hzero hfourteen hnine
  have hnumber : Json.Spelling ['\\', 'u', '0', '0', 'E', '9'] "é".toList :=
    .cons (.unit hdigits) .nil
  have hletter : Json.Spelling "é".toList "é".toList := Json.spelling_plain (by decide)
  have hbyNumber : IsObject byNumber.toList [("é", "QQ==")] :=
    Json.isObject_single hnumber (Json.spelling_plain (by decide)) (by decide)
  have hbyItself : IsObject byItself.toList [("é", "QUI=")] :=
    Json.isObject_single hletter (Json.spelling_plain (by decide)) (by decide)
  have hspoilt : IsObject spoilt.toList [("é", "QR==")] :=
    Json.isObject_single hletter (Json.spelling_plain (by decide)) (by decide)
  have hlists : ∀ value bs, IsBase64 value bs → Lists [("é", value)] (.ofList [("é", bs)]) :=
    fun value bs h => ⟨fun key hkey => hkey, fun e he => ⟨bs, by simp [Dict.get?_ofList,
      List.mem_singleton.1 he], by rwa [List.mem_singleton.1 he]⟩⟩
  have hfault : Base64.decode (Utf8.encode "QR==") = .error (.invalidLastSymbol 82 1) := by decide
  obtain ⟨hexact, -, -, hdiffer⟩ := transientOfJson_exact byNumber
  have hread := hexact _ _ hbyNumber (hlists "QQ==" [0x41] (by unfold IsBase64; decide))
  refine ⟨hread, ?_, ?_⟩
  · obtain ⟨hexact', -⟩ := transientOfJson_exact byItself
    have hread' := hexact' _ _ hbyItself (hlists "QUI=" [0x41, 0x42] (by unfold IsBase64; decide))
    exact ⟨_, hread', (hdiffer _ _ _ _ _ hbyNumber hbyItself hread hread' ⟨"é", by decide⟩).symm⟩
  · obtain ⟨-, hspoilt', -⟩ := transientOfJson_exact spoilt
    obtain ⟨haccepted, hrefused⟩ := hspoilt' _ hspoilt
    cases hread' : transientOfJson spoilt with
    | ok d =>
      exact absurd ⟨"QR==", by decide, not_isBase64_of_error hfault⟩ (haccepted.1 ⟨d, hread'⟩ "é")
    | error e =>
      obtain ⟨key, value, fault, -, hvalue, hdecode, he, -⟩ := hrefused e hread'
      have hmember : (key, value) = ("é", "QR==") := List.mem_singleton.1 (mem_of_lastUnder hvalue)
      obtain ⟨rfl, rfl⟩ := Prod.mk.inj hmember
      obtain rfl : .invalidLastSymbol 82 1 = fault := Except.error.inj (hfault.symm.trans hdecode)
      rw [he]
      rfl

end LedgerClient
