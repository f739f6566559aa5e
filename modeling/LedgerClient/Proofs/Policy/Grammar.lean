import LedgerClient.Chaincode.Definition
import LedgerClient.Proofs.Policy.Tokens
/-!
# The grammar of policy expressions

`Derives` is the grammar: expressions, and lists of operands with commas between them.

* `reads_derived`: what the parser moves over is derived.
* `derives_isRead`: what is derived is moved over, whatever follows, as long as the fuel is twice
  the length of the text.
* `check_ok_iff`: the parser accepts exactly the policies.
* `checkPolicy_iff_grammar`: a text is accepted exactly if it is one expression, followed by nothing
  but white space.
-/

namespace LedgerClient

namespace Policy

/-- What opens a gate, up to its operands: its name in any case and a parenthesis, and where the
gate names a count that count. -/
inductive Opens : List Char → Option Nat → Prop
  | plain {name w : List Char} : lowerCase name = "and" ∨ lowerCase name = "or" → Blanks w →
      Opens (name ++ (w ++ ['('])) none
  | counting {name w t : List Char} {k : Nat} : lowerCase name = "outof" → Blanks w →
      IsCount t k → Opens (name ++ (w ++ ['(']) ++ t) (some k)

/-- Whether a gate allows so many operands. -/
def Allows : Option Nat → Nat → Prop
  | none, _ => True
  | some k, n => 1 ≤ k ∧ k ≤ n

/-- A principal with its quotes, which are of one kind and do not stand inside. -/
inductive IsPrincipal : List Char → Prop
  | quoted {quote : Char} {body : List Char} : quote = '\'' ∨ quote = '"' → quote ∉ body →
      NamesRole body → IsPrincipal (quote :: (body ++ [quote]))

/-- The parts of a policy that nest. -/
inductive Part where
  | expression
  | operands (n : Nat)

/-- The texts of a part. -/
inductive Derives : Part → List Char → Prop
  | principal {w t : List Char} : Blanks w → IsPrincipal t → Derives .expression (w ++ t)
  | gate {w o t v : List Char} {k : Option Nat} {n : Nat} : Blanks w → Opens o k →
      Derives (.operands n) t → Allows k n → Blanks v →
      Derives .expression (w ++ (o ++ (t ++ (v ++ [')']))))
  | last {t : List Char} : Derives .expression t → Derives (.operands 1) t
  | more {t w u : List Char} {n : Nat} : Derives .expression t → Blanks w →
      Derives (.operands n) u → Derives (.operands (n + 1)) (t ++ (w ++ ',' :: u))

/-- A policy is one expression, with white space around it. -/
def IsPolicy (text : List Char) : Prop :=
  ∃ t w, text = t ++ w ∧ Derives .expression t ∧ Blanks w

/-! ## The readers of gates -/

theorem opening_ok_iff {name : String} {s s' : Cursor} {k? : Option Nat} :
    opening name s = .ok (k?, s') ↔
      ((name = "and" ∨ name = "or") ∧ k? = none ∧ s' = s) ∨
        (name = "outof" ∧ ∃ t k, k? = some k ∧ IsCount t k ∧ k < 2 ^ 64 ∧ s.Reads t s') := by
  rw [opening]
  split
  · rename_i hplain
    constructor
    · intro h
      cases h
      exact .inl ⟨hplain, rfl, rfl⟩
    · rintro (⟨-, rfl, rfl⟩ | ⟨rfl, -⟩)
      · rfl
      · simp at hplain
  · rename_i hplain
    split
    · rename_i hcounting
      constructor
      · intro h
        obtain ⟨⟨k, s''⟩, hcount, hreturn⟩ := except_bind_ok.1 h
        cases hreturn
        obtain ⟨t, ht⟩ := count_ok_iff.1 hcount
        exact .inr ⟨hcounting, t, k, rfl, ht⟩
      · rintro (⟨h, -⟩ | ⟨-, t, k, rfl, ht⟩)
        · exact absurd h hplain
        · exact except_bind_ok.2 ⟨(k, s'), count_ok_iff.2 ⟨t, ht⟩, rfl⟩
    · rename_i hcounting
      refine ⟨fun h => (nomatch h), ?_⟩
      rintro (⟨h, -⟩ | ⟨h, -⟩)
      · exact absurd h hplain
      · exact absurd h hcounting

theorem isLetter_iff {c : Char} :
    isLetter c = true ↔ (97 ≤ c.toNat ∧ c.toNat ≤ 122) ∨ (65 ≤ c.toNat ∧ c.toNat ≤ 90) := by
  simp only [isLetter, Bool.or_eq_true, Bool.and_eq_true, decide_eq_true_eq, Char.le_def,
    UInt32.le_iff_toNat_le]
  rfl

theorem isBlank_of_isLetter {c : Char} (h : isLetter c = true) : isBlank c = false :=
  isBlank_of_visible (by
    have h := isLetter_iff.1 h
    omega)

theorem not_isLetter_of_isBlank {c : Char} (h : isBlank c = true) : isLetter c = false :=
  Bool.eq_false_iff.2 fun hletter => by
    rw [isBlank_of_isLetter hletter] at h
    cases h

theorem isLetter_of_toLower {c : Char} (h : isLetter c.toLower = true) : isLetter c = true := by
  delta Char.toLower at h
  split at h
  · rename_i hupper
    simp only [ge_iff_le, UInt32.le_iff_toNat_le] at hupper
    exact isLetter_iff.2 (.inr hupper)
  · exact h

/-- The names of the gates. -/
def gateNames : List String := ["and", "or", "outof"]

/-- The name of a gate, in any case, consists of letters. -/
theorem letters_of_gateName {name : List Char} (h : lowerCase name ∈ gateNames) :
    name ≠ [] ∧ ∀ c ∈ name, isLetter c = true := by
  have hletters : ∀ word ∈ gateNames, word ≠ "" ∧ word.toList.all isLetter = true := by decide
  obtain ⟨hne, hall⟩ := hletters _ h
  refine ⟨?_, fun c hc => isLetter_of_toLower (List.all_eq_true.1 hall c.toLower ?_)⟩
  · rintro rfl
    exact hne rfl
  · rw [lowerCase, String.toList_ofList]
    exact List.mem_map_of_mem hc

/-- Between white space and a character that is none, a cursor stops at what is no letter. -/
theorem stops_isLetter {s s' : Cursor} {w : List Char} {c : Char} (hw : Blanks w)
    (hc : isLetter c = false) (h : s.Reads (w ++ [c]) s') : s.Stops isLetter := by
  cases w with
  | nil => exact .of_cons h.rest hc
  | cons b w => exact .of_cons h.rest (not_isLetter_of_isBlank (hw b List.mem_cons_self))

/-- The letters of a name are taken as a whole. -/
theorem takeWhile_name {s s' : Cursor} {name w : List Char} (h : lowerCase name ∈ gateNames)
    (hw : Blanks w) (hreads : s.Reads (name ++ (w ++ ['('])) s') :
    ∃ m, s.takeWhile isLetter = (name, m) ∧ m.expect '(' = .ok s' := by
  obtain ⟨m, hm, hparen⟩ := hreads.split
  exact ⟨m, Cursor.takeWhile_eq_iff.2 ⟨(letters_of_gateName h).2, hm,
    stops_isLetter hw (by decide) hparen⟩, (Cursor.expect_ok_iff (by decide)).2 ⟨w, hw, hparen⟩⟩

theorem mem_gateNames_of_plain {name : String} (h : name = "and" ∨ name = "or") :
    name ∈ gateNames := by
  rcases h with rfl | rfl <;> decide

theorem mem_gateNames_of_counting {name : String} (h : name = "outof") : name ∈ gateNames := by
  rw [h]
  decide

/-- A gate begins with a letter. -/
theorem Opens.exists_letter {o : List Char} {k? : Option Nat} (h : Opens o k?) :
    ∃ c rest, o = c :: rest ∧ isLetter c = true := by
  obtain ⟨name, rest, rfl, hname⟩ :
      ∃ name rest, o = name ++ rest ∧ lowerCase name ∈ gateNames := by
    cases h with
    | plain hname => exact ⟨_, _, rfl, mem_gateNames_of_plain hname⟩
    | counting hname => exact ⟨_, _, List.append_assoc _ _ _, mem_gateNames_of_counting hname⟩
  obtain ⟨hne, hall⟩ := letters_of_gateName hname
  obtain ⟨c, cs, rfl⟩ := List.exists_cons_of_ne_nil hne
  exact ⟨c, cs ++ rest, rfl, hall c List.mem_cons_self⟩

theorem gate_ok_iff {ops : Cursor → Except Fault (Nat × Cursor)} {s s' : Cursor} :
    gate ops s = .ok s' ↔
      ∃ o k? s₁ n s₂ v, Opens o k? ∧ (∀ k ∈ k?, k < 2 ^ 64) ∧ s.Reads o s₁ ∧
        ops s₁ = .ok (n, s₂) ∧ Allows k? n ∧ Blanks v ∧ s₂.Reads (v ++ [')']) s' := by
  constructor
  · intro h
    rw [gate] at h
    generalize htake : s.takeWhile isLetter = taken at h
    obtain ⟨name, after⟩ := taken
    obtain ⟨-, hname, -⟩ := Cursor.takeWhile_eq_iff.1 htake
    obtain ⟨m, hexpect, h₁⟩ := except_bind_ok.1 h
    obtain ⟨w, hw, hparen⟩ := (Cursor.expect_ok_iff (by decide)).1 hexpect
    obtain ⟨⟨k?, s₁⟩, hopening, h₂⟩ := except_bind_ok.1 h₁
    obtain ⟨⟨n, s₂⟩, hops, h₃⟩ := except_bind_ok.1 h₂
    obtain ⟨s₃, hclose, hallows⟩ := except_bind_ok.1 h₃
    obtain ⟨v, hv, hreads⟩ := (Cursor.expect_ok_iff (by decide)).1 hclose
    rcases opening_ok_iff.1 hopening with
      ⟨hplain, rfl, rfl⟩ | ⟨hcounting, t, k, rfl, ht, hk, hcount⟩
    · cases hallows
      exact ⟨_, none, s₁, n, s₂, v, .plain hplain hw, fun _ h => (nomatch h), hname.trans hparen,
        hops, trivial, hv, hreads⟩
    · dsimp only at hallows
      split at hallows
      · cases hallows
      rename_i hnot
      cases hallows
      refine ⟨_, some k, s₁, n, s₂, v, .counting hcounting hw ht, fun _ h => ?_,
        (hname.trans hparen).trans hcount, hops, ⟨?_, ?_⟩, hv, hreads⟩
      · cases h
        exact hk
      · omega
      · omega
  · rintro ⟨o, k?, s₁, n, s₂, v, hopens, hsmall, hreads, hops, hallows, hv, hreadsClose⟩
    have hclose : s₂.expect ')' = .ok s' :=
      (Cursor.expect_ok_iff (by decide)).2 ⟨v, hv, hreadsClose⟩
    cases hopens with
    | @plain name w hname hw =>
      obtain ⟨m, htake, hexpect⟩ := takeWhile_name (mem_gateNames_of_plain hname) hw hreads
      rw [gate, htake]
      refine except_bind_ok.2 ⟨s₁, hexpect, except_bind_ok.2 ⟨(none, s₁), ?_, ?_⟩⟩
      · exact opening_ok_iff.2 (.inl ⟨hname, rfl, rfl⟩)
      · exact except_bind_ok.2 ⟨(n, s₂), hops, except_bind_ok.2 ⟨s', hclose, rfl⟩⟩
    | @counting name w t k hname hw ht =>
      obtain ⟨s₀, hopen, hcount⟩ := hreads.split
      obtain ⟨m, htake, hexpect⟩ := takeWhile_name (mem_gateNames_of_counting hname) hw hopen
      have hnot : ¬(k = 0 ∨ n < k) := by
        have h₁ := hallows.1
        have h₂ := hallows.2
        omega
      rw [gate, htake]
      refine except_bind_ok.2 ⟨s₀, hexpect, except_bind_ok.2 ⟨(some k, s₁), ?_, ?_⟩⟩
      · exact opening_ok_iff.2 (.inr ⟨hname, t, k, rfl, ht, hsmall k rfl, hcount⟩)
      · refine except_bind_ok.2 ⟨(n, s₂), hops, except_bind_ok.2 ⟨s', hclose, ?_⟩⟩
        exact if_neg hnot

/-! ## Soundness -/

theorem width_of_quote {c : Char} (h : c = '\'' ∨ c = '"') : Utf8.width c = 1 := by
  rcases h with rfl | rfl <;> decide

/-- An expression that is read is a principal, or a gate over operands that are read with less
fuel. -/
theorem expression_succ_ok {fuel : Nat} {s s' : Cursor} (h : expression (fuel + 1) s = .ok s') :
    (∃ t, IsPrincipal t ∧ s.skipBlank.Reads t s') ∨
      gate (fun s => operands fuel s) s.skipBlank = .ok s' := by
  rw [expression] at h
  cases hrest : s.skipBlank.rest with
  | nil =>
    simp only [hrest] at h
    cases h
  | cons c rest =>
    simp only [hrest] at h
    split at h
    · rename_i hc
      have hquote : c = '\'' ∨ c = '"' := by simpa using hc
      obtain ⟨body, hbody, hnames, hreads⟩ := (principal_ok_iff (width_of_quote hquote)).1 h
      refine .inl ⟨c :: (body ++ [c]), .quoted hquote hbody hnames, ?_⟩
      have hopen := Cursor.reads_single hrest
      rw [width_of_quote hquote] at hopen
      exact hopen.trans hreads
    · exact .inr h

/-- What is moved over is derived.  The induction is on the fuel, for expressions and for operands
at once. -/
theorem reads_derived (fuel : Nat) :
    (∀ {s s' : Cursor}, expression fuel s = .ok s' →
      ∃ t, Derives .expression t ∧ s.Reads t s') ∧
    ∀ {s s' : Cursor} {n : Nat}, operands fuel s = .ok (n, s') →
      ∃ t w, Derives (.operands n) t ∧ Blanks w ∧ s.Reads (t ++ w) s' := by
  induction fuel with
  | zero => exact ⟨fun h => (nomatch h), fun h => (nomatch h)⟩
  | succ fuel ih =>
    constructor
    · intro s s' h
      obtain ⟨w, hw, hskip⟩ := Cursor.reads_skipBlank s
      rcases expression_succ_ok h with ⟨t, ht, hreads⟩ | hgate
      · exact ⟨w ++ t, .principal hw ht, hskip.trans hreads⟩
      · obtain ⟨o, k?, s₁, n, s₂, v, hopens, -, hreads, hops, hallows, hv, hclose⟩ :=
          gate_ok_iff.1 hgate
        obtain ⟨t, u, ht, hu, hoperands⟩ := ih.2 hops
        refine ⟨_, .gate hw hopens ht hallows (hu.append hv), ?_⟩
        have hall := hskip.trans (hreads.trans (hoperands.trans hclose))
        simpa only [List.append_assoc] using hall
    · intro s s' n h
      rw [operands] at h
      obtain ⟨m, hexpression, h⟩ := except_bind_ok.1 h
      obtain ⟨t, ht, hreads⟩ := ih.1 hexpression
      obtain ⟨w, hw, hskip⟩ := Cursor.reads_skipBlank m
      dsimp only at h
      split at h
      · rename_i rest hrest
        obtain ⟨⟨n', s''⟩, hops, hreturn⟩ := except_bind_ok.1 h
        cases hreturn
        obtain ⟨u, v, hu, hv, hoperands⟩ := ih.2 hops
        refine ⟨_, v, .more ht hw hu, hv, ?_⟩
        have hcomma : m.skipBlank.Reads [','] ⟨m.skipBlank.pos + 1, rest⟩ :=
          Cursor.reads_single hrest
        have hall := hreads.trans (hskip.trans (hcomma.trans hoperands))
        simpa only [List.append_assoc, List.cons_append, List.nil_append] using hall
      · cases h
        exact ⟨t, w, .last ht, hw, hreads.trans hskip⟩

/-! ## Completeness -/

/-- Every operand takes a character. -/
theorem Derives.length_le {part : Part} {t : List Char} (h : Derives part t) :
    match part with
    | .expression => 1 ≤ t.length
    | .operands n => n ≤ t.length := by
  induction h with
  | principal hw ht =>
    cases ht
    simp
    omega
  | gate hw hopens ht hallows hv ih =>
    simp
    omega
  | last ht ih => exact ih
  | more ht hw hu ih₁ ih₂ =>
    simp only [List.length_append, List.length_cons] at ih₁ ih₂ ⊢
    omega

theorem expression_of_principal {fuel : Nat} {s s' : Cursor} {w t : List Char} (hw : Blanks w)
    (ht : IsPrincipal t) (h : s.Reads (w ++ t) s') : expression (fuel + 1) s = .ok s' := by
  obtain ⟨m, hm, hreads⟩ := h.split
  obtain ⟨hquote, hbody, hnames⟩ := ht
  rename_i quote body
  have hrest : m.rest = quote :: (body ++ [quote] ++ s'.rest) := hreads.rest
  have hblank : isBlank quote = false := by rcases hquote with rfl | rfl <;> decide
  have hskip : s.skipBlank = m := Cursor.skipBlank_eq_iff.2 ⟨w, hw, hm, .of_cons hrest hblank⟩
  have hwidth := width_of_quote hquote
  obtain ⟨inner, hinner, hclose⟩ :=
    (show m.Reads ([quote] ++ (body ++ [quote])) s' from hreads).split
  have hstart := (Cursor.reads_single hrest).unique hinner
  rw [hwidth] at hstart
  rw [expression, hskip]
  simp only [hrest]
  rw [if_pos (by simpa using hquote), ← hstart]
  exact (principal_ok_iff hwidth).2 ⟨body, hbody, hnames, hclose⟩

theorem expression_of_gate {fuel : Nat} {s s₁ s₂ s' : Cursor} {w o v : List Char} {k? : Option Nat}
    {n : Nat} (hw : Blanks w) (hopens : Opens o k?) (hsmall : ∀ k ∈ k?, k < 2 ^ 64)
    (hopen : s.Reads (w ++ o) s₁) (hops : operands fuel s₁ = .ok (n, s₂)) (hallows : Allows k? n)
    (hv : Blanks v) (hclose : s₂.Reads (v ++ [')']) s') : expression (fuel + 1) s = .ok s' := by
  obtain ⟨m, hm, hreads⟩ := hopen.split
  obtain ⟨c, rest, rfl, hletter⟩ := hopens.exists_letter
  have hrest : m.rest = c :: (rest ++ s₁.rest) := hreads.rest
  have hskip : s.skipBlank = m :=
    Cursor.skipBlank_eq_iff.2 ⟨w, hw, hm, .of_cons hrest (isBlank_of_isLetter hletter)⟩
  have hquote : ¬(c = '\'' || c = '"') = true := by
    simp only [Bool.or_eq_true, decide_eq_true_eq]
    rintro (rfl | rfl) <;> exact absurd hletter (by decide)
  rw [expression, hskip]
  simp only [hrest]
  rw [if_neg hquote]
  exact gate_ok_iff.2 ⟨_, k?, s₁, n, s₂, v, hopens, hsmall, hreads, hops, hallows, hv, hclose⟩

/-- A part that the parser moves over with fuel for twice its length.  Operands go on as long as
commas follow, so none may follow them; white space after them is skipped. -/
def IsRead (t : List Char) : Part → Prop
  | .expression => ∀ fuel s s', 2 * t.length ≤ fuel → s.Reads t s' → expression fuel s = .ok s'
  | .operands n => ∀ fuel s s', 2 * t.length + 1 ≤ fuel → s.Reads t s' →
      s'.skipBlank.Stops (· = ',') → operands fuel s = .ok (n, s'.skipBlank)

theorem derives_isRead {part : Part} {t : List Char} (h : Derives part t)
    (hlength : t.length < 2 ^ 64) : IsRead t part := by
  induction h with
  | @principal w t hw ht =>
    intro fuel s s' hfuel hreads
    have hle := (Derives.principal hw ht).length_le
    obtain ⟨fuel, rfl⟩ : ∃ f, fuel = f + 1 := ⟨fuel - 1, by dsimp only at hle; omega⟩
    exact expression_of_principal hw ht hreads
  | @gate w o t v k? n hw hopens ht hallows hv ih =>
    intro fuel s s' hfuel hreads
    simp only [List.length_append, List.length_singleton] at hlength hfuel
    obtain ⟨fuel, rfl⟩ : ∃ f, fuel = f + 1 := ⟨fuel - 1, by omega⟩
    obtain ⟨s₁, hopen, hrest⟩ := (show s.Reads ((w ++ o) ++ (t ++ (v ++ [')']))) s' from
      (List.append_assoc w o _).symm ▸ hreads).split
    obtain ⟨s₂, hoperands, hclose⟩ := hrest.split
    obtain ⟨s₃, hblank, hparen⟩ := hclose.split
    have hskip : s₂.skipBlank = s₃ :=
      Cursor.skipBlank_eq_iff.2 ⟨v, hv, hblank, .of_cons hparen.rest (by decide)⟩
    have hops : operands fuel s₁ = .ok (n, s₃) := by
      rw [← hskip]
      refine ih (by omega) fuel s₁ s₂ (by omega) hoperands ?_
      rw [hskip]
      exact .of_cons hparen.rest (by decide)
    have hle : n ≤ t.length := ht.length_le
    refine expression_of_gate hw hopens (fun k hk => ?_) hopen hops hallows .nil hparen
    cases hk
    have hk := hallows.2
    omega
  | @last t ht ih =>
    intro fuel s s' hfuel hreads hstops
    obtain ⟨fuel, rfl⟩ : ∃ f, fuel = f + 1 := ⟨fuel - 1, by omega⟩
    rw [operands]
    refine except_bind_ok.2 ⟨s', ih hlength fuel s s' (by omega) hreads, ?_⟩
    dsimp only
    split
    · rename_i rest hrest
      have hcomma := hstops ',' (by rw [hrest]; rfl)
      cases hcomma
    · rfl
  | @more t w u n ht hw hu ih₁ ih₂ =>
    intro fuel s s' hfuel hreads hstops
    simp only [List.length_append, List.length_cons] at hlength hfuel
    obtain ⟨fuel, rfl⟩ : ∃ f, fuel = f + 1 := ⟨fuel - 1, by omega⟩
    obtain ⟨m, hm, hrest⟩ := hreads.split
    obtain ⟨m', hblank, hcomma⟩ := hrest.split
    obtain ⟨m'', hsingle, hoperands⟩ := (show m'.Reads ([','] ++ u) s' from hcomma).split
    have hskip : m.skipBlank = m' :=
      Cursor.skipBlank_eq_iff.2 ⟨w, hw, hblank, .of_cons hcomma.rest (by decide)⟩
    rw [operands]
    refine except_bind_ok.2 ⟨m, ih₁ (by omega) fuel s m (by omega) hm, ?_⟩
    have hcommaRest : m'.rest = ',' :: (u ++ s'.rest) := hcomma.rest
    have hnext := (Cursor.reads_single hcommaRest).unique hsingle
    have hops := ih₂ (by omega) fuel m'' s' (by omega) hoperands hstops
    rw [hnext] at hops
    rw [hskip]
    simp only [hcommaRest]
    exact except_bind_ok.2 ⟨(n, s'.skipBlank), hops, rfl⟩

/-! ## Policies -/

theorem check_ok_iff {text : List Char} (hlength : text.length < 2 ^ 64) :
    check text = .ok () ↔ IsPolicy text := by
  constructor
  · intro h
    rw [check] at h
    obtain ⟨m, hexpression, h⟩ := except_bind_ok.1 h
    obtain ⟨t, ht, hreads⟩ := (reads_derived _).1 hexpression
    obtain ⟨w, hw, hskip⟩ := Cursor.reads_skipBlank m
    dsimp only at h
    split at h
    · rename_i hempty
      refine ⟨t, w, ?_, ht, hw⟩
      have hall := (hreads.trans hskip).rest
      rwa [List.isEmpty_iff.1 hempty, List.append_nil] at hall
    · cases h
  · rintro ⟨t, w, rfl, ht, hw⟩
    rw [List.length_append] at hlength
    obtain ⟨m, hm, hblank⟩ :=
      (show Cursor.Reads ⟨0, t ++ w⟩ (t ++ w) ⟨0 + Utf8.size (t ++ w), []⟩ from
        ⟨(List.append_nil _).symm, rfl⟩).split
    have hexpression : expression (2 * (t ++ w).length + 2) ⟨0, t ++ w⟩ = .ok m :=
      derives_isRead ht (by omega) _ _ _ (by rw [List.length_append]; omega) hm
    have hskip : m.skipBlank = ⟨0 + Utf8.size (t ++ w), []⟩ :=
      Cursor.skipBlank_eq_iff.2 ⟨w, hw, hblank, fun c hc => (nomatch hc)⟩
    rw [check]
    refine except_bind_ok.2 ⟨m, hexpression, ?_⟩
    rw [hskip]
    rfl

end Policy

theorem checkPolicy_ok_iff {policy : String} :
    checkPolicy policy = .ok () ↔ Policy.check policy.toList = .ok () := by
  rw [checkPolicy]
  cases Policy.check policy.toList with
  | ok _ => exact ⟨fun _ => rfl, fun _ => rfl⟩
  | error fault => exact ⟨fun h => (nomatch h), fun h => (nomatch h)⟩

/-- Without a reference to a policy of the channel, a signature policy is encoded if it is
accepted. -/
theorem exists_applicationPolicy_iff {policy : String} {reference? : Option String}
    (hpolicy : policy ≠ "") (hreference : nonEmpty? reference? = none) :
    (∃ bytes, applicationPolicy (some policy) reference? = .ok bytes) ↔
      checkPolicy policy = .ok () := by
  have hempty : ¬policy.isEmpty = true := fun h => hpolicy (String.isEmpty_iff.1 h)
  have hsome : nonEmpty? (some policy) = some policy := if_neg hempty
  rw [applicationPolicy, applicationPolicy?, hsome, hreference]
  constructor
  · rintro ⟨bytes, h⟩
    obtain ⟨_, hcheck, -⟩ := except_bind_ok.1 h
    obtain ⟨_, hcheck, -⟩ := except_bind_ok.1 hcheck
    exact hcheck
  · intro h
    exact ⟨_, except_bind_ok.2 ⟨_, except_bind_ok.2 ⟨(), h, rfl⟩, rfl⟩⟩

/-- A signature policy is accepted, by itself and as the only policy of a chaincode, exactly if it
is one expression of the grammar with nothing but white space after it.  A text of 2 ^ 64 characters
fits into no memory; more operands than that could not be counted. -/
theorem checkPolicy_iff_grammar (policy : String) (hlength : policy.length < 2 ^ 64) :
    (checkPolicy policy = .ok () ↔ Policy.IsPolicy policy.toList) ∧
      (policy ≠ "" → ∀ reference?, nonEmpty? reference? = none →
        ((∃ bytes, applicationPolicy (some policy) reference? = .ok bytes) ↔
          Policy.IsPolicy policy.toList)) := by
  have hcheck : checkPolicy policy = .ok () ↔ Policy.IsPolicy policy.toList := by
    rw [checkPolicy_ok_iff, Policy.check_ok_iff]
    rwa [String.length_toList]
  refine ⟨hcheck, fun hpolicy reference? hreference => ?_⟩
  rw [exists_applicationPolicy_iff hpolicy hreference, hcheck]

/-- Two of two operands, in which quotes, cases and kinds of white space are mixed, make a policy,
and three of two do not. -/
theorem checkPolicy_iff_grammar_counts :
    let policy := "OutOf(2, 'Org.1.Member',\u3000aNd ( \"it's.PEER\" ) )\n"
    let excessive := "OutOf(3, 'Org.1.Member',\u3000aNd ( \"it's.PEER\" ) )\n"
    policy.length < 2 ^ 64 ∧ Policy.IsPolicy policy.toList ∧
      excessive.length < 2 ^ 64 ∧ ¬Policy.IsPolicy excessive.toList := by
  intro policy excessive
  have hpolicy : policy.length < 2 ^ 64 := by decide +kernel
  have hexcessive : excessive.length < 2 ^ 64 := by decide +kernel
  have haccepted : checkPolicy policy = .ok () := by decide +kernel
  have hrefused : checkPolicy excessive ≠ .ok () := by decide +kernel
  exact ⟨hpolicy, (checkPolicy_iff_grammar policy hpolicy).1.1 haccepted, hexcessive,
    fun h => hrefused ((checkPolicy_iff_grammar excessive hexcessive).1.2 h)⟩

end LedgerClient
