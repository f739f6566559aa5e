import LedgerClient.Proofs.Json.Brackets
import LedgerClient.Proofs.Wire.RoundTrip
/-!
# Reading messages back from JSON

* `Schema.legible`: the names in a schema can be told apart, and so can nothing and an option.
* `Schema.scan_toJson`: a value of a legible schema is read off the front of its own text.
* `fromJson_toJsonText`: a message is read back from its text.
-/

namespace LedgerClient

open Json (Ends Fault Reads ReadsBack Scan Value)
open Json.Value

variable {α : Type} {rest : Bytes}

/-! ## Numbers, truth values and texts -/

theorem scanInteger_number (h : Ends rest) {low high n : Int} (hlow : low ≤ n) (hhigh : n ≤ high)
    (hsigned : -2 ^ 63 ≤ n) (hunsigned : n < 2 ^ 64) :
    scanInteger low high ((Value.number n).bytes ++ rest) = .ok (n, rest) := by
  have hscan := Json.scanNumber_numeral h hsigned hunsigned
  have hfirst : ∃ c cs, (Value.number n).bytes = c :: cs ∧
      (decide (c = Ascii.minus) || Json.isDigit c) = true := by
    rw [bytes_number, Json.encodeChars_numeral]
    split
    · exact ⟨_, _, rfl, rfl⟩
    · obtain ⟨b, bs, hdigits, hb, -⟩ := Json.digits_eq_cons n.natAbs
      exact ⟨b, bs, hdigits, by rw [hb, Bool.or_true]⟩
  obtain ⟨c, cs, hc, hdigit⟩ := hfirst
  rw [← bytes_number, hc, List.cons_append] at hscan
  have hskip := Json.skipSpace_bytes (.number n) rest
  rw [hc, List.cons_append] at hskip ⊢
  simp only [scanInteger, hskip, hdigit, if_true, hscan, hlow, hhigh, and_self]

theorem scanUnsigned_number (h : Ends rest) {width n : Nat} (hwidth : width ≤ 64)
    (hn : n < 2 ^ width) : scanUnsigned width ((Value.number n).bytes ++ rest) = .ok (n, rest) := by
  have hpow : Int.pow 2 width = ((2 ^ width : Nat) : Int) := (Int.natCast_pow 2 width).symm
  have hle : 2 ^ width ≤ 2 ^ 64 := Nat.pow_le_pow_right (by decide) hwidth
  rw [scanUnsigned, scanInteger_number h (by omega) (by omega) (by omega) (by omega)]
  rfl

theorem scanSigned_number (h : Ends rest) {width : Nat} {n : Int} (hwidth : width ≤ 64)
    (hlow : -2 ^ (width - 1) ≤ n) (hhigh : n < 2 ^ (width - 1)) :
    scanSigned width ((Value.number n).bytes ++ rest) = .ok (n, rest) := by
  have hpow : (2 : Int) ^ (width - 1) = ((2 ^ (width - 1) : Nat) : Int) :=
    (Int.natCast_pow 2 (width - 1)).symm
  have hpow' : Int.pow 2 (width - 1) = (2 : Int) ^ (width - 1) := rfl
  have hle : 2 ^ (width - 1) ≤ 2 ^ 63 := Nat.pow_le_pow_right (by decide) (by omega)
  rw [scanSigned, scanInteger_number h (by omega) (by omega) (by omega) (by omega)]

theorem scanBool_bytes (b : Bool) (rest : Bytes) :
    scanBool ((Value.bool b).bytes ++ rest) = .ok (b, rest) := by
  cases b with
  | true =>
    rw [bytes_true]
    rfl
  | false =>
    rw [bytes_false]
    rfl

theorem scanText_keyBytes (s : String) (rest : Bytes) :
    scanText (keyBytes s ++ rest) = .ok (s, rest) := by
  rw [keyBytes_append]
  exact Json.scanString_quoted s rest

theorem scanByte_number (b : UInt8) :
    ReadsBack scanByte (fun b => .number b.toNat) b := by
  intro rest h
  rw [scanByte, scanUnsigned_number h (by decide) b.toNat_lt]
  exact congrArg (fun b => Except.ok (b, rest)) UInt8.ofNat_toNat

/-! ## Names and alternatives -/

section Arms

variable {known : String → Bool} {bare : String → Except Fault α} {holding : String → Scan α}
  {name : String} {a : α}

theorem scanArm_text (h : bare name = .ok a) (rest : Bytes) :
    scanArm known bare holding ((Value.text name).bytes ++ rest) = .ok (a, rest) := by
  rw [bytes_text, keyBytes_append]
  change (Json.scanString (Utf8.encodeChars (name.toList.flatMap escape) ++ Ascii.quote :: rest) >>=
    fun x => bare x.1 >>= fun a => Except.ok (a, x.2)) = _
  rw [Json.scanString_quoted]
  change (bare name >>= fun a => Except.ok (a, rest)) = _
  rw [h]
  rfl

theorem scanArm_object {v : Value} (hknown : known name = true)
    (h : ∀ rest, Ends rest → holding name (v.bytes ++ rest) = .ok (a, rest)) (rest : Bytes) :
    scanArm known bare holding ((Value.object [(name, v)]).bytes ++ rest) = .ok (a, rest) := by
  have hname (cs : Bytes) : scanArmName known (keyBytes name ++ Ascii.colon :: cs) =
      .ok (name, cs) := by
    rw [scanArmName, scanText_keyBytes]
    simp only [bind, Except.bind, hknown, if_true, Json.scanColon_colon]
    rfl
  rw [bytes_object_cons, memberBytes_nil, List.cons_append, List.append_assoc, List.cons_append,
    List.append_assoc, List.singleton_append]
  change (scanArmName known (keyBytes name ++
      Ascii.colon :: (v.bytes ++ Ascii.closeCurly :: rest)) >>= fun x =>
    holding x.1 x.2 >>= fun y => closeArm y.2 >>= fun cs => Except.ok (y.1, cs)) = _
  rw [hname]
  change (holding name (v.bytes ++ Ascii.closeCurly :: rest) >>= fun y =>
    closeArm y.2 >>= fun cs => Except.ok (y.1, cs)) = _
  rw [h _ (show Ends (Ascii.closeCurly :: rest) from .inr (.inr rfl))]
  rfl

end Arms

theorem indexOf?_getElem : ∀ {names : List String}, names.Nodup → ∀ i : Fin names.length,
    indexOf? names[i] names = some i
  | _ :: _, _, ⟨0, _⟩ => if_pos rfl
  | n :: ns, h, ⟨i + 1, hi⟩ => by
    obtain ⟨hnew, hrest⟩ := List.nodup_cons.1 h
    have hlt : i < ns.length := Nat.lt_of_succ_lt_succ hi
    have hne : ns[i] ≠ n := fun heq => hnew (heq ▸ List.getElem_mem hlt)
    have ih := indexOf?_getElem hrest ⟨i, hlt⟩
    change (if ns[i] = n then _ else (indexOf? ns[i] ns).map Fin.succ) = _
    rw [if_neg hne, show indexOf? ns[i] ns = _ from ih]
    rfl

theorem scanName_getElem {names : List String} (h : names.Nodup) (i : Fin names.length)
    (rest : Bytes) : scanName names ((Value.text names[i]).bytes ++ rest) = .ok (i, rest) := by
  rw [scanName]
  refine scanArm_text ?_ rest
  rw [indexOf?_getElem h]

/-! ## Dictionaries -/

theorem reads_entries {value : Scan α} {f : α → Value} {l : List (String × α)}
    (h : ∀ e ∈ l, ReadsBack value f e.2) (d : Dict α) :
    Reads (scanEntry value) d (l.map fun e => (e.1, f e.2))
      (l.foldl (fun d e => d.insert e.1 e.2) d) := by
  induction l generalizing d with
  | nil => exact .nil
  | cons e l ih =>
    refine .cons (fun rest hrest => ?_) (ih (fun e he => h e (List.mem_cons_of_mem _ he)) _)
    rw [scanEntry, Json.scanColon_colon]
    change (value ((f e.2).bytes ++ rest) >>= fun x => Except.ok (d.insert e.1 x.1, x.2)) = _
    rw [h e List.mem_cons_self rest hrest]
    rfl

/-- A dictionary whose values are read back is read back. -/
theorem scanDict_bytes {value : Scan α} {f : α → Value} {d : Dict α}
    (h : ∀ e ∈ d.entries, ReadsBack value f e.2) (rest : Bytes) :
    scanDict value ((Value.object (d.entries.map fun e => (e.1, f e.2))).bytes ++ rest) =
      .ok (d, rest) := by
  obtain ⟨cs, hcs, hscan⟩ := Json.exists_bytes_object (reads_entries h .empty) rest
  rw [hcs]
  refine (hscan : scanDict value (Ascii.openCurly :: cs) = _).trans ?_
  exact congrArg (fun d => Except.ok (d, rest)) (Dict.ofList_entries d)

/-! ## Schemas -/

def Fields.names : Fields → List String
  | .nil => []
  | .cons name _ _ rest => name :: rest.names

mutual

/-- The names of alternatives and of fields are different, and no option holds an option. -/
def Schema.legible : Schema → Bool
  | .enumeration names => names.Nodup
  | .list item => item.legible
  | .option item => !item.isOption && item.legible
  | .dict value => value.legible
  | .record fields => fields.legible
  | .choice arms => arms.legible
  | _ => true

def Fields.legible : Fields → Bool
  | .nil => true
  | .cons name _ schema rest => name ∉ rest.names && schema.legible && rest.legible

def Arms.legible : Arms → Bool
  | .nil => true
  | .bare name rest => name ∉ rest.names && rest.legible
  | .holding name schema rest => name ∉ rest.names && schema.legible && rest.legible

end

/-! ### Records -/

/-- All members of a record. -/
def Fields.allSlots : (fs : Fields) → fs.Carrier → fs.Slots
  | .nil, _ => ()
  | .cons _ _ _ rest, (a, r) => (some a, rest.allSlots r)

theorem Fields.complete_allSlots : ∀ {fs : Fields} (r : fs.Carrier),
    fs.complete (fs.allSlots r) = .ok r
  | .nil, _ => rfl
  | .cons _ _ _ rest, (a, r) => by
    rw [Fields.allSlots, Fields.complete]
    change (rest.complete (rest.allSlots r) >>= fun r => Except.ok (a, r)) = _
    rw [rest.complete_allSlots r]
    rfl

/-- The members of the later fields pass the first field by. -/
theorem Fields.reads_cons {name : String} {absence : Absence} {schema : Schema} {fields : Fields}
    {slot : Option schema.Carrier} {slots slots' : fields.Slots} {ms : List (String × Value)}
    (h : Reads (fun key slots cs => fields.scanMember key slots cs) slots ms slots')
    (hname : ∀ m ∈ ms, m.1 ≠ name) :
    Reads (fun key slots cs => (Fields.cons name absence schema fields).scanMember key slots cs)
      (slot, slots) ms (slot, slots') := by
  induction h with
  | nil => exact .nil
  | cons hmember _ ih =>
    refine .cons (fun rest hrest => ?_) (ih fun m hm => hname m (List.mem_cons_of_mem _ hm))
    rw [Fields.scanMember, if_neg (hname _ List.mem_cons_self), hmember rest hrest]
    rfl

theorem Fields.names_toMembers : ∀ {fs : Fields} (r : fs.Carrier),
    (fs.toMembers r).map (·.1) = fs.names
  | .nil, _ => rfl
  | .cons name _ _ rest, (_, r) => by
    rw [Fields.toMembers, List.map_cons, rest.names_toMembers r, Fields.names]

/-! ### Choices -/

/-- The text of an alternative names it, and by this name it is read. -/
inductive Arms.ToldBy (as : Arms) (a : as.Carrier) (name : String) : Prop
  | alone : as.toJson a = .text name → as.ofName name = .ok a → ToldBy as a name
  | holding {v : Value} : as.toJson a = .object [(name, v)] →
      (∀ rest, Ends rest → as.scanHeld name (v.bytes ++ rest) = .ok (a, rest)) → ToldBy as a name

theorem Arms.ToldBy.after_bare {as : Arms} {a : as.Carrier} {name first : String}
    (h : as.ToldBy a name) (hne : name ≠ first) : (Arms.bare first as).ToldBy (.inr a) name := by
  cases h with
  | alone hjson hname =>
    refine .alone (by rw [Arms.toJson, hjson]) ?_
    rw [Arms.ofName, if_neg hne, hname]
    rfl
  | holding hjson hheld =>
    refine .holding (by rw [Arms.toJson, hjson]) fun rest h => ?_
    rw [Arms.scanHeld, if_neg hne, hheld rest h]
    rfl

theorem Arms.ToldBy.after_holding {as : Arms} {a : as.Carrier} {name first : String}
    {schema : Schema} (h : as.ToldBy a name) (hne : name ≠ first) :
    (Arms.holding first schema as).ToldBy (.inr a) name := by
  cases h with
  | alone hjson hname =>
    refine .alone (by rw [Arms.toJson, hjson]) ?_
    rw [Arms.ofName, if_neg hne, hname]
    rfl
  | holding hjson hheld =>
    refine .holding (by rw [Arms.toJson, hjson]) fun rest h => ?_
    rw [Arms.scanHeld, if_neg hne, hheld rest h]
    rfl

mutual

/-- A value of a legible schema is read off the front of its text. -/
theorem Schema.scan_toJson : ∀ {s : Schema}, s.legible = true → ∀ c : s.Carrier,
    ∀ rest, Ends rest → s.scan ((s.toJson c).bytes ++ rest) = .ok (c, rest)
  | .uint16, _, n, rest, h => by
    rw [Schema.scan, Schema.toJson, scanUnsigned_number h (by decide) n.toNat_lt]
    exact congrArg (fun n => Except.ok (n, rest)) UInt16.ofNat_toNat
  | .uint32, _, n, rest, h => by
    rw [Schema.scan, Schema.toJson, scanUnsigned_number h (by decide) n.toNat_lt]
    exact congrArg (fun n => Except.ok (n, rest)) UInt32.ofNat_toNat
  | .uint64, _, n, rest, h => by
    rw [Schema.scan, Schema.toJson, scanUnsigned_number h (by decide) n.toNat_lt]
    exact congrArg (fun n => Except.ok (n, rest)) UInt64.ofNat_toNat
  | .int32, _, n, rest, h => by
    rw [Schema.scan, Schema.toJson, scanSigned_number h (by decide) n.le_toInt n.toInt_lt]
    exact congrArg (fun n => Except.ok (n, rest)) (Int32.ofInt_toInt n)
  | .int64, _, n, rest, h => by
    rw [Schema.scan, Schema.toJson, scanSigned_number h (by decide) n.le_toInt n.toInt_lt]
    exact congrArg (fun n => Except.ok (n, rest)) (Int64.ofInt_toInt n)
  | .bool, _, b, rest, _ => by
    rw [Schema.scan, Schema.toJson]
    exact scanBool_bytes b rest
  | .text, _, s, rest, _ => by
    rw [Schema.scan, Schema.toJson, bytes_text]
    exact scanText_keyBytes s rest
  | .bytes, _, bs, rest, _ => by
    rw [Schema.scan, Schema.toJson]
    exact Json.scanList_bytes (fun b _ => scanByte_number b) rest
  | .enumeration names, hs, i, rest, _ => by
    rw [Schema.legible, decide_eq_true_eq] at hs
    rw [Schema.scan, Schema.toJson]
    exact scanName_getElem hs i rest
  | .list item, hs, l, rest, _ => by
    rw [Schema.legible] at hs
    rw [Schema.scan, Schema.toJson]
    exact Json.scanList_bytes (fun a _ rest h => item.scan_toJson hs a rest h) rest
  | .option item, _, none, rest, _ => by
    rw [Schema.toJson, bytes_null, Schema.scan]
    rfl
  | .option item, hs, some a, rest, h => by
    rw [Schema.legible, Bool.and_eq_true, Bool.not_eq_true'] at hs
    have hscan := item.scan_toJson hs.2 a rest h
    have hskip := Json.skipSpace_bytes (item.toJson a) rest
    obtain ⟨c, cs, hc, -, -, hletter⟩ := (item.toJson a).bytes_eq_cons
    have hc' := hletter (item.toJson_ne_null hs.1 a)
    rw [Schema.toJson]
    rw [hc, List.cons_append] at hskip hscan ⊢
    rw [Schema.scan, hskip]
    split
    · rename_i heq
      exact absurd (List.cons.inj heq).1 hc'
    · rw [hscan]
      rfl
  | .dict value, hs, d, rest, _ => by
    rw [Schema.legible] at hs
    rw [Schema.scan, Schema.toJson]
    exact scanDict_bytes (fun e _ rest h => value.scan_toJson hs e.2 rest h) rest
  | .record fields, hs, r, rest, _ => by
    rw [Schema.legible] at hs
    obtain ⟨cs, hcs, hscan⟩ := Json.exists_bytes_object (fields.reads_toMembers hs r) rest
    rw [Schema.toJson, hcs, Schema.scan]
    change (Json.scanMembers (fun key slots cs => fields.scanMember key slots cs) (cs.length + 1)
      true fields.noSlots cs >>= fun x => fields.complete x.1 >>= fun r =>
        Except.ok (r, x.2)) = _
    rw [hscan]
    change (fields.complete (fields.allSlots r) >>= fun r => Except.ok (r, rest)) = _
    rw [fields.complete_allSlots r]
    rfl
  | .choice arms, hs, a, rest, _ => by
    rw [Schema.legible] at hs
    rw [Schema.scan, Schema.toJson]
    obtain ⟨name, hmem, htold⟩ := arms.toldBy hs a
    cases htold with
    | alone hjson hname =>
      rw [hjson]
      exact scanArm_text hname rest
    | holding hjson hheld =>
      rw [hjson]
      exact scanArm_object (List.contains_iff_mem.2 hmem) hheld rest

/-- The members of a record fill its slots one after the other. -/
theorem Fields.reads_toMembers : ∀ {fs : Fields}, fs.legible = true → ∀ r : fs.Carrier,
    Reads (fun key slots cs => fs.scanMember key slots cs) fs.noSlots (fs.toMembers r)
      (fs.allSlots r)
  | .nil, _, _ => .nil
  | .cons name _ schema fields, hs, (a, r) => by
    rw [Fields.legible, Bool.and_eq_true, Bool.and_eq_true, decide_eq_true_eq] at hs
    rw [Fields.noSlots, Fields.toMembers, Fields.allSlots]
    refine .cons (fun rest h => ?_) (Fields.reads_cons (fields.reads_toMembers hs.2 r) ?_)
    · have hscan := schema.scan_toJson hs.1.2 a rest h
      rw [Fields.scanMember, if_pos rfl, Json.scanColon_colon]
      change (schema.scan ((schema.toJson a).bytes ++ rest) >>= fun x =>
        Except.ok ((some x.1, fields.noSlots), x.2)) = _
      rw [hscan]
      rfl
    · rintro m hm rfl
      refine hs.1.1 ?_
      rw [← fields.names_toMembers r]
      exact List.mem_map_of_mem hm

theorem Arms.toldBy : ∀ {as : Arms}, as.legible = true → ∀ a : as.Carrier,
    ∃ name ∈ as.names, as.ToldBy a name
  | .bare name arms, _, .inl _ =>
    ⟨name, List.mem_cons_self, .alone (by rw [Arms.toJson]) (if_pos rfl)⟩
  | .bare name arms, hs, .inr a => by
    rw [Arms.legible, Bool.and_eq_true, decide_eq_true_eq] at hs
    obtain ⟨n, hmem, htold⟩ := arms.toldBy hs.2 a
    exact ⟨n, List.mem_cons_of_mem _ hmem, htold.after_bare fun heq => hs.1 (heq ▸ hmem)⟩
  | .holding name schema arms, hs, .inl a => by
    rw [Arms.legible, Bool.and_eq_true, Bool.and_eq_true, decide_eq_true_eq] at hs
    refine ⟨name, List.mem_cons_self, .holding (by rw [Arms.toJson]) fun rest h => ?_⟩
    rw [Arms.scanHeld, if_pos rfl, schema.scan_toJson hs.1.2 a rest h]
    rfl
  | .holding name schema arms, hs, .inr a => by
    rw [Arms.legible, Bool.and_eq_true, Bool.and_eq_true, decide_eq_true_eq] at hs
    obtain ⟨n, hmem, htold⟩ := arms.toldBy hs.2 a
    exact ⟨n, List.mem_cons_of_mem _ hmem, htold.after_holding fun heq => hs.1.1 (heq ▸ hmem)⟩

end

/-! ## Messages -/

/-- A message is read back from its text. -/
theorem fromJson_toJsonText [Layout α] (h : (schema α).legible = true) (a : α) :
    fromJson α (Utf8.encode (toJsonText a)) = .ok a := by
  have htext : Utf8.encode (toJsonText a) = ((schema α).toJson (pack a)).bytes := by
    rw [Utf8.encode, toJsonText, Value.toText, String.toList_ofList]
    rfl
  have hscan := Schema.scan_toJson h (pack a) [] trivial
  rw [List.append_nil] at hscan
  rw [fromJson, scanAll, htext, hscan]
  exact congrArg Except.ok (Layout.unpack_pack a)

end LedgerClient
