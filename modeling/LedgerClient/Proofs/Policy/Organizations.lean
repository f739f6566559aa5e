import LedgerClient.Organization.Standard
import LedgerClient.Proofs.Policy.Walk
import LedgerClient.Proofs.Wire.Canonical
/-!
# The policies of organizations

The standard policies of an organization put its id between quotes as it is.  An id without a single
quote cannot end the principal early, and no role has a dot, so whatever else is in the id, each
policy is accepted and its principals name this organization.

* `does_principal_named`: a principal with white space before it is read as what it is.
* `does_choice`: a choice of roles is read as one principal for each of them.
* `organizationPolicies_accepted`: all of the standard policies.
-/

namespace LedgerClient

namespace Policy

variable {s s' : Cursor}

/-- What stands between the quotes of a principal. -/
def roleOf (mspId role : List Char) : List Char := mspId ++ '.' :: role

def quoted (body : List Char) : List Char := '\'' :: (body ++ ['\''])

/-- Principals with commas between them, as they are written. -/
def choice (bodies : List (List Char)) : List Char := [',', ' '].intercalate (bodies.map quoted)

theorem choice_singleton (body : List Char) : choice [body] = quoted body := by
  rw [choice, List.map_singleton, List.intercalate_singleton]

theorem choice_cons_cons (body next : List Char) (bodies : List (List Char)) :
    choice (body :: next :: bodies) = quoted body ++ ',' :: ' ' :: choice (next :: bodies) := by
  rw [choice, List.map_cons, List.map_cons, List.intercalate_cons_cons, List.append_assoc]
  rfl

theorem rule_anyRole (mspId : String) (roles : List String) :
    (anyRole mspId roles).rule.toList = 'O' :: 'R' :: '(' ::
      (choice (roles.map fun role => roleOf mspId.toList role.toList) ++ [')']) := by
  have hbodies : (roles.map fun role => "'" ++ mspId ++ "." ++ role ++ "'").map String.toList =
      (roles.map fun role => roleOf mspId.toList role.toList).map quoted := by
    rw [List.map_map, List.map_map]
    refine List.map_congr_left fun role _ => ?_
    simp [quoted, roleOf]
  rw [anyRole, String.toList_append, String.toList_append, String.toList_intercalate, hbodies]
  rfl

theorem skipBlank_of_stops (h : s.Stops isBlank) : s.skipBlank = s :=
  Cursor.skipBlank_eq_iff.2 ⟨[], .nil, .refl s, h⟩

/-- The principal is read as it stands between the quotes. -/
theorem does_principal_named (text : List Char) (fuel : Nat) {w body : List Char} (hw : Blanks w)
    (hbody : '\'' ∉ body) (hnames : NamesRole body) (h : s.Reads (w ++ quoted body) s') :
    Policy.expression (fuel + 1) s = .ok s' ∧
      Does text (Walk.expression text (fuel + 1)) s [body] (.ok ((), s')) := by
  have hread : Policy.expression (fuel + 1) s = .ok s' :=
    expression_of_principal hw (.quoted (.inl rfl) hbody hnames) h
  obtain ⟨m, hm, hquoted⟩ := h.split
  have hrest : m.rest = '\'' :: (body ++ '\'' :: s'.rest) := by
    rw [hquoted.rest, quoted, List.cons_append, List.append_assoc, List.singleton_append]
  have hskip : s.skipBlank = m :=
    Cursor.skipBlank_eq_iff.2 ⟨w, hw, hm, .of_cons hrest (by decide)⟩
  have htake : (body ++ '\'' :: s'.rest).takeWhile (· != '\'') = body := by
    rw [List.takeWhile_append_of_pos]
    · rw [List.takeWhile_cons_of_neg (by decide), List.append_nil]
    · intro c hc
      exact bne_iff_ne.2 fun heq => hbody (heq ▸ hc)
  have hdoes : Does text (Walk.expression text (fuel + 1)) s _ _ :=
    does_expression_principal fuel (hskip ▸ hrest) (.inl rfl)
  rw [htake, hread] at hdoes
  exact ⟨hread, hdoes⟩

/-- A choice is read as its principals, up to a closing parenthesis. -/
theorem does_choice (text : List Char) {bodies : List (List Char)} (hne : bodies ≠ [])
    (hbodies : ∀ body ∈ bodies, '\'' ∉ body ∧ NamesRole body) {fuel : Nat}
    (hfuel : bodies.length + 1 ≤ fuel) {w : List Char} (hw : Blanks w)
    (h : s.Reads (w ++ choice bodies) s') (hclose : s'.rest.head? = some ')') :
    Policy.operands fuel s = .ok (bodies.length, s') ∧
      Does text (Walk.operands text fuel) s bodies (Policy.operands fuel s) := by
  induction bodies generalizing s w fuel with
  | nil => exact absurd rfl hne
  | cons body rest ih =>
    obtain ⟨hbody, hnames⟩ := hbodies body List.mem_cons_self
    obtain ⟨fuel, rfl⟩ : ∃ f, fuel = f + 2 := ⟨fuel - 2, by rw [List.length_cons] at hfuel; omega⟩
    cases rest with
    | nil =>
      rw [choice_singleton] at h
      obtain ⟨hread, hdoes⟩ := does_principal_named text fuel hw hbody hnames h
      have hskip : s'.skipBlank = s' := by
        refine skipBlank_of_stops fun c hc => ?_
        rw [hclose] at hc
        cases hc
        decide
      have hlast : s'.skipBlank.rest.head? ≠ some ',' := by
        rw [hskip, hclose]
        decide
      refine ⟨?_, does_operands_last hdoes hread hlast⟩
      rw [operands_last hread hlast, hskip]
      rfl
    | cons next rest =>
      rw [choice_cons_cons, ← List.append_assoc] at h
      obtain ⟨m, hm, hafter⟩ := h.split
      obtain ⟨hread, hdoes⟩ := does_principal_named text fuel hw hbody hnames hm
      have hskip : m.skipBlank = m := skipBlank_of_stops (.of_cons hafter.rest (by decide))
      have hcomma : m.skipBlank.rest = ',' :: (' ' :: choice (next :: rest) ++ s'.rest) := by
        rw [hskip]
        exact hafter.rest
      have hmore : Cursor.Reads ⟨m.skipBlank.pos + 1, ' ' :: choice (next :: rest) ++ s'.rest⟩
          ([' '] ++ choice (next :: rest)) s' := by
        refine ⟨rfl, ?_⟩
        rw [hafter.pos, hskip, Nat.add_assoc]
        rfl
      have hfuel' : (next :: rest).length + 1 ≤ fuel + 1 := by
        rw [List.length_cons] at hfuel
        omega
      have hblank : Blanks [' '] := fun c hc => by
        rw [List.mem_singleton.1 hc]
        decide
      obtain ⟨hops, hdoes'⟩ := ih (List.cons_ne_nil _ _)
        (fun b hb => hbodies b (List.mem_cons_of_mem _ hb)) hfuel' hblank hmore
      refine ⟨?_, does_operands_comma hdoes hread hcomma hdoes'⟩
      rw [operands_comma hread hcomma, hops]
      rfl

/-- A gate over a choice is read up to its closing parenthesis. -/
theorem does_gate_choice (text : List Char) {bodies : List (List Char)} (hne : bodies ≠ [])
    (hbodies : ∀ body ∈ bodies, '\'' ∉ body ∧ NamesRole body) {fuel : Nat}
    (hfuel : bodies.length + 1 ≤ fuel)
    (h : s.Reads (['O', 'R', '('] ++ (choice bodies ++ [')'])) s') :
    Policy.gate (Policy.operands fuel) s = .ok s' ∧
      Does text (Walk.gate text (Walk.operands text fuel)) s bodies
        (moving (Policy.gate (Policy.operands fuel) s)) := by
  obtain ⟨s₁, hopen, hafter⟩ := h.split
  obtain ⟨s₂, hchoice, hclose⟩ := hafter.split
  have hhead : s₂.rest.head? = some ')' := by rw [hclose.rest]; rfl
  obtain ⟨hread, hdoes⟩ := does_choice text hne hbodies hfuel .nil hchoice hhead
  have hor : lowerCase ['O', 'R'] = "or" := by decide
  have hopens : Opens (['O', 'R'] ++ ([] ++ ['('])) none := .plain (.inr hor) .nil
  refine ⟨gate_ok_iff.2 ⟨_, none, s₁, bodies.length, s₂, [], hopens, fun _ hk => (nomatch hk),
    hopen, hread, trivial, .nil, hclose⟩, does_gate fun k? s₁' hs₁' => ?_⟩
  obtain ⟨m, htake, hparen⟩ :=
    takeWhile_name (w := []) (mem_gateNames_of_plain (.inr hor)) .nil hopen
  rw [gateOpening, htake] at hs₁'
  dsimp only at hs₁'
  rw [hparen, hor] at hs₁'
  cases hs₁'
  exact hdoes

theorem plain_of_mem_roles :
    ∀ role ∈ roles, '\'' ∉ role.toList ∧ '.' ∉ role.toList ∧ lowerCase role.toList = role := by
  decide

theorem namesRole_roleOf {mspId : List Char} (hne : mspId ≠ []) (hquote : '\'' ∉ mspId)
    {role : String} (hrole : role ∈ roles) :
    '\'' ∉ roleOf mspId role.toList ∧ NamesRole (roleOf mspId role.toList) := by
  obtain ⟨hrolequote, hdot, hlower⟩ := plain_of_mem_roles role hrole
  refine ⟨fun h => ?_, mspId, role.toList, rfl, hdot, hne, by rwa [hlower]⟩
  rcases List.mem_append.1 h with h | h
  · exact hquote h
  · exact hrolequote ((List.mem_cons.1 h).resolve_left (by decide))

theorem length_le_choice (bodies : List (List Char)) : bodies.length ≤ (choice bodies).length := by
  induction bodies with
  | nil => exact Nat.zero_le _
  | cons body rest ih =>
    cases rest with
    | nil =>
      rw [choice_singleton, quoted, List.length_cons, List.length_cons]
      exact Nat.succ_le_succ (Nat.zero_le _)
    | cons next rest =>
      rw [choice_cons_cons]
      simp only [List.length_append, List.length_cons] at ih ⊢
      omega

/-- A text that is a gate over a choice is one expression. -/
theorem does_expression_choice {text : List Char} {bodies : List (List Char)} (hne : bodies ≠ [])
    (hbodies : ∀ body ∈ bodies, '\'' ∉ body ∧ NamesRole body)
    (htext : text = 'O' :: 'R' :: '(' :: (choice bodies ++ [')'])) :
    Policy.expression (Walk.enough text) ⟨0, text⟩ = .ok ⟨Utf8.size text, []⟩ ∧
      Does text (Walk.expression text (Walk.enough text)) ⟨0, text⟩ bodies
        (moving (Policy.expression (Walk.enough text) ⟨0, text⟩)) := by
  have hfuel : bodies.length + 1 ≤ 2 * text.length + 1 := by
    have hchoice := length_le_choice bodies
    rw [htext, List.length_cons, List.length_cons, List.length_cons, List.length_append]
    omega
  have hreads : Cursor.Reads ⟨0, text⟩ (['O', 'R', '('] ++ (choice bodies ++ [')']))
      ⟨Utf8.size text, []⟩ := by
    have hwhole : ['O', 'R', '('] ++ (choice bodies ++ [')']) = text := htext.symm
    rw [hwhole]
    exact ⟨(List.append_nil text).symm, (Nat.zero_add _).symm⟩
  have hskip : Cursor.skipBlank ⟨0, text⟩ = ⟨0, text⟩ :=
    skipBlank_of_stops (.of_cons htext (by decide))
  have hstart : (Cursor.skipBlank ⟨0, text⟩).rest =
      'O' :: 'R' :: '(' :: (choice bodies ++ [')']) := by
    rw [hskip, htext]
  obtain ⟨hgate, hdoes⟩ := does_gate_choice text hne hbodies hfuel hreads
  refine ⟨?_, does_expression_gate hstart (by decide) (hskip.symm ▸ hdoes)⟩
  rw [Walk.enough, Policy.expression]
  simp only [hstart]
  rw [if_neg (by decide), hskip]
  exact hgate

theorem check_of_expression {text : List Char}
    (h : Policy.expression (Walk.enough text) ⟨0, text⟩ = .ok ⟨Utf8.size text, []⟩) :
    Policy.check text = .ok () := by
  have hend : Cursor.skipBlank ⟨Utf8.size text, []⟩ = ⟨Utf8.size text, []⟩ :=
    skipBlank_of_stops fun c hc => (nomatch hc)
  refine except_bind_ok.2 ⟨_, h, ?_⟩
  dsimp only
  rw [hend]
  rfl

/-- The parser accepts a choice of known roles and reads a principal for each of them. -/
theorem check_anyRole {mspId : String} (hne : mspId ≠ "") (hquote : '\'' ∉ mspId.toList)
    {names : List String} (hnames : names ≠ []) (hknown : ∀ role ∈ names, role ∈ roles) :
    Policy.check (anyRole mspId names).rule.toList = .ok () ∧
      ∃ t, Walk.check (anyRole mspId names).rule.toList .start = .ok () t ∧
        t.principals = names.map fun role => roleOf mspId.toList role.toList := by
  have hbodies : ∀ body ∈ names.map (fun role => roleOf mspId.toList role.toList),
      '\'' ∉ body ∧ NamesRole body := by
    rintro _ hbody
    obtain ⟨role, hrole, rfl⟩ := List.mem_map.1 hbody
    exact namesRole_roleOf (fun hnil => hne (String.toList_eq_nil_iff.1 hnil)) hquote
      (hknown role hrole)
  obtain ⟨hexpression, hdoes⟩ := does_expression_choice
    (fun hnil => hnames (List.map_eq_nil_iff.1 hnil)) hbodies (rule_anyRole mspId names)
  have hcheck := check_of_expression hexpression
  have hwalk := does_check hdoes
  rw [hcheck] at hwalk
  obtain ⟨t, hran, -, -, hprincipals⟩ := hwalk .start (Track.start_at _)
  exact ⟨hcheck, t, hran, hprincipals⟩

/-- The standard policies of an organization are choices of known roles. -/
theorem exists_anyRole_of_mem {mspId : String} {e : String × Policy}
    (h : e ∈ (peerOrganizationPolicies mspId).entries ++
      (ordererOrganizationPolicies mspId).entries) :
    ∃ names, names ≠ [] ∧ (∀ role ∈ names, role ∈ roles) ∧ e.2 = anyRole mspId names := by
  have hlists : ∀ names ∈ [["admin", "peer", "client"], ["admin", "client"], ["admin"], ["peer"],
      ["member"]], names ≠ [] ∧ ∀ role ∈ names, role ∈ roles := by decide
  suffices hpolicy : ∃ names ∈ [["admin", "peer", "client"], ["admin", "client"], ["admin"],
      ["peer"], ["member"]], e.2 = anyRole mspId names by
    obtain ⟨names, hmem, heq⟩ := hpolicy
    exact ⟨names, (hlists names hmem).1, (hlists names hmem).2, heq⟩
  rcases List.mem_append.1 h with h | h
  · have hmem := Dict.mem_of_mem_ofList h
    simp only [List.mem_cons, List.not_mem_nil, or_false] at hmem
    rcases hmem with rfl | rfl | rfl | rfl
    all_goals exact ⟨_, by decide, rfl⟩
  · have hmem := Dict.mem_of_mem_ofList h
    simp only [List.mem_cons, List.not_mem_nil, or_false] at hmem
    rcases hmem with rfl | rfl | rfl
    all_goals exact ⟨_, by decide, rfl⟩

end Policy

/-- Each standard policy of an organization is a signature policy that is accepted, and all
principals that are read in it belong to this organization, whatever its id is made of, as long as
it has a character and none is a single quote. -/
theorem organizationPolicies_accepted (mspId : String) (hne : mspId ≠ "")
    (hquote : '\'' ∉ mspId.toList) :
    ∀ e ∈ (peerOrganizationPolicies mspId).entries ++ (ordererOrganizationPolicies mspId).entries,
      e.2.kind = .signature ∧ checkPolicy e.2.rule = .ok () ∧
        ∃ t, Policy.Walk.check e.2.rule.toList .start = .ok () t ∧ t.principals ≠ [] ∧
          ∀ body ∈ t.principals, ∃ role,
            Policy.splitAtLastDot? body = some (mspId.toList, role) := by
  intro e he
  obtain ⟨names, hnames, hknown, hpolicy⟩ := Policy.exists_anyRole_of_mem he
  obtain ⟨hcheck, t, hwalk, hprincipals⟩ := Policy.check_anyRole hne hquote hnames hknown
  rw [hpolicy]
  refine ⟨rfl, checkPolicy_ok_iff.2 hcheck, t, hwalk, ?_, fun body hbody => ?_⟩
  · rw [hprincipals]
    exact fun hnil => hnames (List.map_eq_nil_iff.1 hnil)
  · rw [hprincipals] at hbody
    obtain ⟨role, hrole, rfl⟩ := List.mem_map.1 hbody
    exact ⟨role.toList, Policy.splitAtLastDot?_eq_some_iff.2
      ⟨rfl, (Policy.plain_of_mem_roles role (hknown role hrole)).2.1⟩⟩

/-- An id that is made of what policies use between principals. -/
theorem organizationPolicies_accepted_punctuated :
    let mspId := "Org.1 (x, \"y\").admin"
    mspId ≠ "" ∧ '\'' ∉ mspId.toList ∧ ∃ e ∈ (peerOrganizationPolicies mspId).entries,
      e.1 = "Endorsement" ∧ e.2.rule = "OR('Org.1 (x, \"y\").admin.peer')" ∧
        checkPolicy e.2.rule = .ok () := by
  intro mspId
  have hne : mspId ≠ "" := by decide
  have hquote : '\'' ∉ mspId.toList := by decide
  have hmem : ("Endorsement", anyRole mspId ["peer"]) ∈ (peerOrganizationPolicies mspId).entries :=
    by decide
  have haccepted := organizationPolicies_accepted mspId hne hquote _ (List.mem_append_left _ hmem)
  exact ⟨hne, hquote, _, hmem, rfl, by decide, haccepted.2.1⟩

end LedgerClient
