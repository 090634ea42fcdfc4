import CodeAtlas.Proofs.Extraction.Respelling
import CodeAtlas.Proofs.Extraction.WellFormed

/-!
# The two spellings of unnamed functions

An unnamed function may be spelled as a function expression or as an arrow function.  Both are
recorded as values of variables, under the names of these, and nowhere else but in one place: as the
value of an export default statement a function expression is recorded as anonymous, an arrow
function not at all.  Apart from this, changing the spelling changes neither what is recorded nor
the complexity of the file (`spellings_recorded_alike`).
-/

namespace CodeAtlas.Extraction

open CodeAtlas.Syntax CodeAtlas.Syntax.Node

/-! ### Where unnamed functions are recorded -/

/-- The node is a function expression without a name or an arrow function. -/
def IsUnnamedCallable (n : Node) : Prop :=
  (n.isAmong expressionRules = true ∧ n.child? .name = none) ∨ n.kind = .rule .arrowFunction

/-- The node is the value of a declarator, and the variable has the plain name. -/
def IsValueOf (s : Site) (name : String) : Prop :=
  ∃ declarator id, s.parent = some declarator ∧ declarator.kind = .rule .variableDeclarator ∧
    s.node.field = some .value ∧ declarator.child? .name = some id ∧
    id.kind = .rule .identifier ∧ id.text = name ∧ name ≠ ""

/-- The node is the value of an export default statement. -/
def IsExportedByDefault (s : Site) : Prop :=
  ∃ statement, s.parent = some statement ∧ statement.kind = .rule .exportStatement ∧
    ∃ t ∈ statement.children, t.kind = .token "default"

theorem isExportedByDefault_iff {s : Site} :
    IsExportedByDefault s ↔ isDefaultExport s = true := by
  unfold IsExportedByDefault isDefaultExport hasToken
  cases s.parent with
  | none => simp
  | some p => simp [isRule, isToken]

theorem declaredName?_eq_some_iff {d : Node} {name : String} : declaredName? d = some name ↔
    d.kind = .rule .variableDeclarator ∧ ∃ id, d.child? .name = some id ∧
      id.kind = .rule .identifier ∧ id.text = name ∧ name ≠ "" := by
  unfold declaredName?
  by_cases hd : d.kind = .rule .variableDeclarator
  · cases hname : d.child? .name with
    | none => simp [isRule, hd]
    | some id =>
      simp [isRule, hd, guard]
      grind
  · simp [isRule, hd, guard, failure]

theorem isValueOf_iff {s : Site} {name : String} :
    IsValueOf s name ↔ boundName? s = some name := by
  rw [boundName?_eq]
  constructor
  · rintro ⟨d, id, hparent, hd, hfield, hid⟩
    rw [if_pos hfield, hparent, Option.bind_some]
    exact declaredName?_eq_some_iff.mpr ⟨hd, id, hid⟩
  · intro h
    split_ifs at h with hfield
    · obtain ⟨d, hparent, hname⟩ := Option.bind_eq_some_iff.mp h
      obtain ⟨hd, id, hid⟩ := declaredName?_eq_some_iff.mp hname
      exact ⟨d, id, hparent, hd, hfield, hid⟩

/-- No value of a variable is exported by default. -/
theorem IsValueOf.not_isExportedByDefault {s : Site} {name : String} (h : IsValueOf s name) :
    ¬IsExportedByDefault s := by
  rintro ⟨p, hp, hexport, -⟩
  obtain ⟨d, -, hd, hdeclarator, -⟩ := h
  obtain rfl := Option.some.inj (hp.symm.trans hd)
  exact absurd (hexport.symm.trans hdeclarator) (by decide)

theorem callableName?_arrow {s : Site} (h : s.node.kind = .rule .arrowFunction) :
    callableName? s = boundName? s := by
  have hdeclared : s.node.isAmong declaredRules = false :=
    isAmong_eq_false (isAmong_of_kind h (List.mem_singleton_self _)) (by decide)
  have hexpression : s.node.isAmong expressionRules = false :=
    isAmong_eq_false (isAmong_of_kind h (List.mem_singleton_self _)) (by decide)
  simp [callableName?, hdeclared, hexpression, isRule_iff.mpr h]

theorem callableName?_expression {s : Site} (h : s.node.isAmong expressionRules = true)
    (hname : s.node.child? .name = none) : callableName? s
      = (boundName? s).or (if isDefaultExport s then some anonymousName else none) := by
  have hdeclared : s.node.isAmong declaredRules = false := isAmong_eq_false h (by decide)
  simp [callableName?, hdeclared, h, hname]

/-- The name of an unnamed function is that of a variable, or it is an exported function
expression and anonymous. -/
theorem callableName?_of_isUnnamedCallable {s : Site} (h : IsUnnamedCallable s.node) :
    callableName? s = (boundName? s).or
      (if isDefaultExport s = true ∧ s.node.kind ≠ .rule .arrowFunction then some anonymousName
        else none) := by
  rcases h with ⟨hexpression, hname⟩ | harrow
  · have hnot : s.node.kind ≠ .rule .arrowFunction := fun hk => by
      rw [isAmong_eq_false (isAmong_of_kind hk (List.mem_singleton_self _)) (by decide)]
        at hexpression
      exact Bool.false_ne_true hexpression
    rw [callableName?_expression hexpression hname]
    simp only [hnot, ne_eq, not_false_eq_true, and_true]
  · rw [callableName?_arrow harrow, if_neg fun hcases => hcases.2 harrow, Option.or_none]

/-- Which unnamed functions are recorded, and under which names. -/
theorem functionsAt_of_isUnnamedCallable {s : Site} (h : IsUnnamedCallable s.node) :
    (∀ name, IsValueOf s name → functionsAt s = [functionRecord s.node name]) ∧
    (IsExportedByDefault s → functionsAt s = if s.node.kind = .rule .arrowFunction then []
      else [functionRecord s.node anonymousName]) ∧
    ((∀ name, ¬IsValueOf s name) → ¬IsExportedByDefault s → functionsAt s = []) := by
  have hname := callableName?_of_isUnnamedCallable h
  have hbound : (∀ name, ¬IsValueOf s name) → boundName? s = none := fun hno =>
    Option.eq_none_iff_forall_ne_some.mpr fun name hsome => hno name (isValueOf_iff.mpr hsome)
  refine ⟨fun name hvalue => ?_, fun hexported => ?_, fun hno hnot => ?_⟩
  · rw [functionsAt, hname, isValueOf_iff.mp hvalue]
    rfl
  · rw [functionsAt, hname, hbound fun name hvalue => hvalue.not_isExportedByDefault hexported]
    have hdefault := isExportedByDefault_iff.mp hexported
    split_ifs with hcases harrow harrow
    · exact absurd harrow hcases.2
    · rfl
    · rfl
    · exact absurd ⟨hdefault, harrow⟩ hcases
  · rw [functionsAt, hname, hbound hno, if_neg fun hcases =>
      hnot (isExportedByDefault_iff.mpr hcases.1)]
    rfl

variable {n n' : Node}

/-! ### What is recorded at a site -/

theorem declaredName?_eq (hkind : n.kind = n'.kind)
    (hchildren : List.Forall₂ SameChild n.children n'.children) :
    declaredName? n = declaredName? n' := by
  rw [declaredName?, declaredName?, isRule_congr hkind]
  rcases child?_cases hchildren .name with ⟨hn, hn'⟩ | ⟨c, c', hn, hn', hc⟩
  · rw [hn, hn']
  · have hidentifier : c.isRule .identifier = c'.isRule .identifier :=
      hc.same.isRule_eq (by decide)
    have htext : c.text = c'.text := hc.text_eq (Or.inl (mem_of_child? hn).2)
    simp only [hn, hn', Option.bind_eq_bind, Option.bind_some, hidentifier, htext]

theorem exportsByDefault_eq (hkind : n.kind = n'.kind)
    (hchildren : List.Forall₂ SameChild n.children n'.children) :
    exportsByDefault n = exportsByDefault n' := by
  have htokens : n.children.map (·.isToken "default") = n'.children.map (·.isToken "default") :=
    map_eq_map_of_forall₂ hchildren fun c _ c' hc => hc.same.isToken_eq _
  have hany : ∀ m : Node, m.hasToken "default" = (m.children.map (·.isToken "default")).any id :=
    fun m => by rw [List.any_map]; rfl
  rw [exportsByDefault, exportsByDefault, isRule_congr hkind, hany, hany, htokens]

variable {s s' : Site}

/-- Both callables are recorded under the same name, unless the spelling of one that is exported by
default has changed. -/
theorem Respelled.callableName?_eq (h : Respelled s.node s'.node) (hplace : SamePlace s s') :
    callableName? s = callableName? s' := by
  obtain ⟨p, n⟩ := s
  obtain ⟨p', n'⟩ := s'
  dsimp only at h
  have hbound := hplace.boundName?_eq
  have hdefault := hplace.isDefaultExport_eq
  cases h with
  | node hkind _ _ hchildren =>
    have hown : (n.child? .name).map (·.text) = (n'.child? .name).map (·.text) := by
      rcases child?_cases hchildren .name with ⟨hn, hn'⟩ | ⟨c, c', hn, hn', hc⟩
      · rw [hn, hn']
      · rw [hn, hn', Option.map_some, Option.map_some,
          hc.text_eq (Or.inl (mem_of_child? hn).2)]
    simp only [callableName?, hbound, hown, hdefault, isAmong_congr hkind, isRule_congr hkind]
  | arrow hfunction harrow _ hparts _ _ hparameters =>
    -- what is exported by default has not changed its kind, but this function has
    have hnot : isDefaultExport ⟨p, n⟩ = false := by
      rcases hplace.kind_eq with hkind | hnone
      · have hn : n.isRule .arrowFunction = true := isRule_iff.mpr (hkind.trans harrow)
        rw [isRule_eq_isAmong, isAmong_eq_false hfunction (by decide)] at hn
        exact absurd hn Bool.false_ne_true
      · exact hnone
    have hname : n.child? .name = none := by
      rw [hparts.child?_eq, hparameters.field_eq]
      rfl
    rw [callableName?_expression hfunction hname, callableName?_arrow harrow, hbound, hnot,
      if_neg Bool.false_ne_true, Option.or_none]

theorem HasParts.methodScores_eq {before between after : List Node} {parameters body : Node}
    (h : HasParts n before parameters between body after) : methodScores n = [] := by
  rw [methodScores, List.filter_eq_nil_iff.mpr fun c hc => ?_]
  · rfl
  · rw [h.noMethods c hc]
    exact Bool.false_ne_true

theorem Respelled.methodScores_eq (h : Respelled n n') : methodScores n = methodScores n' := by
  cases h with
  | node _ _ _ hchildren =>
    have hmethod : Rule.methodDefinition ∉ respelledRules := by decide
    have hmethods := forall₂_filter (forall₂_namedChildren hchildren)
      fun hc => hc.same.isRule_eq hmethod
    exact map_eq_map_of_forall₂ hmethods fun c _ c' hc => by rw [hc.same.complexity_eq]
  | arrow _ _ _ hparts hparts' => rw [hparts.methodScores_eq, hparts'.methodScores_eq]

/-- Both classes are equally complex. -/
theorem Respelled.classScore_eq (h : Respelled n n') (hn : n.isAmong respelledRules = false) :
    (classRecord n).complexity = (classRecord n').complexity := by
  rw [complexity_classRecord, complexity_classRecord]
  rcases child?_cases (h.forall₂_children hn) .body with ⟨hb, hb'⟩ | ⟨b, b', hb, hb', hsame⟩
  · rw [hb, hb']
  · rw [hb, hb', Option.map_some, Option.map_some, hsame.same.methodScores_eq]

theorem Respelled.classScores_eq (h : Respelled s.node s'.node) (hplace : SamePlace s s') :
    (classesAt s).map (·.complexity) = (classesAt s').map (·.complexity) := by
  have hrecords : recordsClass s = recordsClass s' := by
    rw [recordsClass, recordsClass, hplace.isDefaultExport_eq, h.isAmong_eq (by decide),
      h.isRule_eq (by decide)]
  rw [classesAt, classesAt, ← hrecords]
  split_ifs with hclass
  · exact congrArg (fun score => [score])
      (h.classScore_eq (isAmong_eq_false (isAmong_of_recordsClass hclass) (by decide)))
  · rfl

/-- At a site, the same is recorded of both nodes. -/
theorem Respelled.atSite_eq (h : Respelled s.node s'.node) (hplace : SamePlace s s') :
    Outline.of (Findings.atSite s) = Outline.of (Findings.atSite s') := by
  have hfunctions : (functionsAt s).map (fun f => (f.name, f.parameters, f.complexity))
      = (functionsAt s').map fun f => (f.name, f.parameters, f.complexity) := by
    rw [functionsAt, functionsAt, ← h.callableName?_eq hplace]
    cases callableName? s with
    | none => rfl
    | some name => simp [functionRecord, h.parameterNames_eq, h.complexity_eq]
  exact congrArg₂ Outline.mk hfunctions (h.classScores_eq hplace)

/-! ### What is found in a tree -/

/-- What is found in a node that is no scope and has one named child is found in the child. -/
theorem Wraps.ofPart_eq {c : Node} {r : Rule} (h : Wraps n c) (hn : n.kind = .rule r)
    (hr : r ∉ scopeRules) (p : Option Node) :
    Outline.ofPart p n = Outline.ofPart (some n) c := by
  have hscope : Outline.of (Findings.atSite ⟨p, n⟩) = Outline.concat [] :=
    Outline.of_atSite (isScope_of_kind hn hr)
  rw [Outline.ofPart_eq (named_of_kind hn), hscope, h.namedChildren_eq, Outline.concat_nil_cons,
    List.map_singleton, Outline.concat_singleton, Outline.concat_singleton]

theorem IsName.ofPart_eq {text : String} (h : IsName n text) (p : Option Node) :
    Outline.ofPart p n = Outline.concat [] := by
  have hscope : Outline.of (Findings.atSite ⟨p, n⟩) = Outline.concat [] :=
    Outline.of_atSite (isScope_of_kind h.rule (by decide))
  rw [Outline.ofPart_eq (named_of_kind h.rule), hscope, namedChildren, h.leaf]
  rfl

theorem ListsOnly.ofPart_eq {l x : Node} (h : ListsOnly l x) (p : Option Node) :
    Outline.ofPart p l = Outline.concat [] := by
  obtain ⟨hrule, -, c, hc, hname | ⟨hrequired, m, hm, -, hname⟩⟩ := h
  · rw [hc.ofPart_eq hrule (by decide), hname.ofPart_eq]
  · rw [hc.ofPart_eq hrule (by decide), hm.ofPart_eq hrequired (by decide), hname.ofPart_eq]

theorem Returns.ofPart_eq {b e : Node} (h : Returns b e) (p : Option Node) :
    ∃ r, IsNeutral r ∧ Outline.ofPart p b = Outline.ofPart (some r) e := by
  obtain ⟨hblock, r, hr, hreturn, he⟩ := h
  refine ⟨r, isNeutral_of_kind hreturn (by decide), ?_⟩
  rw [hr.ofPart_eq hblock (by decide), he.ofPart_eq hreturn (by decide)]

theorem size_lt_of_mem_namedChildren {c : Node} (h : c ∈ n.namedChildren) : c.size < n.size := by
  have hle := size_le_sizeAll (List.mem_of_mem_filter h)
  have hsize := size_eq n
  omega

theorem Wraps.size_lt {c : Node} (h : Wraps n c) : c.size < n.size := by
  refine size_lt_of_mem_namedChildren ?_
  rw [h.namedChildren_eq]
  exact List.mem_singleton_self c

theorem Returns.size_lt {b e : Node} (h : Returns b e) : e.size < b.size := by
  obtain ⟨-, r, hr, -, he⟩ := h
  exact he.size_lt.trans hr.size_lt

/-- In the parts of both callables the same is found, if the same is found in smaller trees. -/
theorem map_ofPart_parts {before between after before' between' after' : List Node}
    {parameters body parameters' body' : Node} (hn : IsNeutral n)
    (hparts : HasParts n before parameters between body after)
    (hparts' : HasParts n' before' parameters' between' body' after')
    (hbefore : List.Forall₂ Respelled before before')
    (hparameters : SameParameters parameters parameters')
    (hbetween : List.Forall₂ Respelled between between') (hbody : SameBody body body')
    (hafter : List.Forall₂ Respelled after after')
    (hsmaller : ∀ {q c c' : Node}, IsNeutral q → c.size < n.size → Respelled c c' →
      Outline.ofPart (some q) c = Outline.ofPart (some n') c') :
    n.namedChildren.map (Outline.ofPart (some n))
      = n'.namedChildren.map (Outline.ofPart (some n')) := by
  have hless : ∀ {c}, c ∈ before ++ parameters :: (between ++ body :: after) → c.size < n.size :=
    fun hc => size_lt_of_mem_namedChildren (hparts.namedChildren_eq ▸ hc)
  have hlist : ∀ {cs cs' : List Node}, List.Forall₂ Respelled cs cs' →
      cs ⊆ before ++ parameters :: (between ++ body :: after) →
      cs.map (Outline.ofPart (some n)) = cs'.map (Outline.ofPart (some n')) := fun hcs hsub =>
    map_eq_map_of_forall₂ hcs fun c hc c' hcc' => hsmaller hn (hless (hsub hc)) hcc'
  have hbefore' := hlist hbefore fun c hc => by simp [hc]
  have hbetween' := hlist hbetween fun c hc => by simp [hc]
  have hafter' := hlist hafter fun c hc => by simp [hc]
  have hparameters' : Outline.ofPart (some n) parameters
      = Outline.ofPart (some n') parameters' := by
    cases hparameters with
    | list _ _ hsame => exact hsmaller hn (hless (by simp)) hsame
    | single _ _ honly => rw [honly.ofPart_eq, honly.single_isName.ofPart_eq]
  have hbody' : Outline.ofPart (some n) body = Outline.ofPart (some n') body' := by
    have hbodyLess : body.size < n.size := hless (by simp)
    cases hbody with
    | block hsame => exact hsmaller hn hbodyLess hsame
    | value hreturns hsame =>
      obtain ⟨r, hr, heq⟩ := hreturns.ofPart_eq (some n)
      rw [heq]
      exact hsmaller hr (hreturns.size_lt.trans hbodyLess) hsame
  rw [hparts.namedChildren_eq, hparts'.namedChildren_eq]
  simp only [List.map_append, List.map_cons]
  rw [hbefore', hparameters', hbetween', hbody', hafter']

/-- Below alike nodes, the places of the children do not tell these apart. -/
theorem forall₂_samePlace (hkind : n.kind = n'.kind)
    (hexported : exportsByDefault n = true → n.children.map (·.kind) = n'.children.map (·.kind))
    (hchildren : List.Forall₂ SameChild n.children n'.children) :
    List.Forall₂ (fun c c' => Respelled c c' ∧ SamePlace ⟨some n, c⟩ ⟨some n', c'⟩)
      n.children n'.children := by
  have hkinds : List.Forall₂ (fun c c' : Node => c.kind = c'.kind ∨ exportsByDefault n = false)
      n.children n'.children := by
    cases hexports : exportsByDefault n with
    | false => exact hchildren.imp fun _ _ _ => Or.inr rfl
    | true =>
      have hmap := hexported hexports
      rw [← List.forall₂_eq_eq_eq, List.forall₂_map_left_iff, List.forall₂_map_right_iff] at hmap
      exact hmap.imp fun _ _ => Or.inl
  refine List.Forall₂.mp (fun c c' hc hk => ⟨hc.same, ?_⟩) hchildren hkinds
  exact ⟨declaredName?_eq hkind hchildren, exportsByDefault_eq hkind hchildren,
    Or.inl hc.field_eq, hk⟩

/-- In both trees the same is found.  By induction on the number of nodes, since the value that a
body returns lies deeper in the one tree than in the other. -/
theorem Respelled.ofPart_eq (h : Respelled s.node s'.node) (hplace : SamePlace s s') :
    Outline.ofPart s.parent s.node = Outline.ofPart s'.parent s'.node := by
  induction hsize : s.node.size using Nat.strongRecOn generalizing s s' with
  | _ size ih =>
  obtain ⟨p, n⟩ := s
  obtain ⟨p', n'⟩ := s'
  dsimp only at h hsize ⊢
  -- tokens are not visited
  by_cases hnamed : n.named = true
  swap
  · have hn : n.named = false := Bool.eq_false_of_not_eq_true hnamed
    rw [Outline.ofPart_of_unnamed hn, Outline.ofPart_of_unnamed (h.named_eq ▸ hn)]
  rw [Outline.ofPart_eq hnamed, Outline.ofPart_eq (h.named_eq ▸ hnamed), h.atSite_eq hplace]
  refine congrArg (fun os => Outline.concat [_, Outline.concat os]) ?_
  cases h with
  | node hkind _ hexported hchildren =>
    have hpairs := forall₂_filter (forall₂_samePlace hkind hexported hchildren)
      fun hc => hc.1.named_eq
    exact map_eq_map_of_forall₂ hpairs fun c hc c' hcc' =>
      ih c.size (hsize ▸ size_lt_of_mem_namedChildren hc) hcc'.1 hcc'.2 rfl
  | arrow hfunction harrow _ hparts hparts' hbefore hparameters hbetween hbody hafter =>
    have hn' : IsNeutral n' := isNeutral_of_kind harrow (by decide)
    exact map_ofPart_parts (isNeutral_of_isAmong hfunction (by decide)) hparts hparts' hbefore
      hparameters hbetween hbody hafter fun {q c c'} hq hc hcc' =>
        ih c.size (hsize ▸ hc) hcc' (hq.samePlace hn' c c') rfl

/-! ### The complexity of the file -/

theorem cyclomatic_eq {path language : String} {size : Nat} {root : Node} {file : FileRecord}
    (h : FileRecord.ofTree path language size root = .ok file) :
    file.complexity.cyclomatic = (Outline.of (Findings.ofTree root)).cyclomatic := by
  obtain ⟨c, hc, rfl⟩ := FileRecord.ofTree_eq_ok_iff.mp h
  obtain ⟨m, -, rfl⟩ := Score.fileComplexity_eq_ok_iff.mp hc
  rw [Outline.cyclomatic, Outline.of, List.map_map]
  rfl

/-- **The two spellings are recorded alike, but for what is exported by default.**  An unnamed
function is recorded as the value of a variable, under the name of this, and, if it is a function
expression, as the value of an export default statement, as anonymous; there is no other record of
it.  So if the spelling of callables that are not exported by default changes, then in their places
the same name, parameters and complexity are recorded, all functions keep theirs, and the file keeps
its complexity. -/
theorem spellings_recorded_alike {root root' : Node} (h : Respelled root root') :
    (∀ s : Site, IsUnnamedCallable s.node →
      (∀ name, IsValueOf s name → functionsAt s = [functionRecord s.node name]) ∧
      (IsExportedByDefault s → functionsAt s = if s.node.kind = .rule .arrowFunction then []
        else [functionRecord s.node anonymousName]) ∧
      ((∀ name, ¬IsValueOf s name) → ¬IsExportedByDefault s → functionsAt s = [])) ∧
    (∀ parent n n' : Node, Respelled n n' → n.field = n'.field → exportsByDefault parent = false →
      Outline.of (Findings.atSite ⟨some parent, n⟩)
        = Outline.of (Findings.atSite ⟨some parent, n'⟩)) ∧
    Outline.of (Findings.ofTree root) = Outline.of (Findings.ofTree root') ∧
    (∀ path path' language language' size size' file file',
      FileRecord.ofTree path language size root = .ok file →
      FileRecord.ofTree path' language' size' root' = .ok file' →
      file.complexity.cyclomatic = file'.complexity.cyclomatic) := by
  have houtline : Outline.of (Findings.ofTree root) = Outline.of (Findings.ofTree root') := by
    rw [← Findings.ofPart_root, ← Findings.ofPart_root]
    exact @Respelled.ofPart_eq ⟨none, root⟩ ⟨none, root'⟩ h ⟨rfl, rfl, Or.inr rfl, Or.inr rfl⟩
  refine ⟨fun s => functionsAt_of_isUnnamedCallable, ?_, houtline, ?_⟩
  · intro parent n n' hn hfield hexports
    exact @Respelled.atSite_eq ⟨some parent, n⟩ ⟨some parent, n'⟩ hn
      ⟨rfl, rfl, Or.inl hfield, Or.inr hexports⟩
  · intro path path' language language' size size' file file' hfile hfile'
    rw [cyclomatic_eq hfile, cyclomatic_eq hfile', houtline]

/-- A node on the first line. -/
def sampleNode (rule : Rule) (field : Option Field) (text : String) (children : List Node) :
    Node :=
  ⟨.rule rule, field, 0, 0, text, false, false, children⟩

/-- A token on the first line. -/
def sampleToken (s : String) : Node := ⟨.token s, none, 0, 0, s, false, false, []⟩

/-- The text `const pick = …;` with a value in the place of the dots. -/
def pick (value : Node) : Node :=
  sampleNode .program none "" [sampleNode .lexicalDeclaration none "" [sampleToken "const",
    sampleNode .variableDeclarator none "" [sampleNode .identifier (some .name) "pick" [],
      sampleToken "=", value],
    sampleToken ";"]]
where
  /-- The expression `x ? 1 : 2`. -/
  choice (field : Option Field) : Node :=
    sampleNode .ternaryExpression field "x ? 1 : 2" [sampleNode .identifier none "x" [],
      sampleToken "?", sampleNode .number none "1" [], sampleToken ":",
      sampleNode .number none "2" []]
  /-- The parameters `(x)`. -/
  list : Node :=
    sampleNode .formalParameters (some .parameters) "(x)" [sampleToken "(",
      sampleNode .identifier none "x" [], sampleToken ")"]
  /-- The parameter `x`. -/
  single : Node := sampleNode .identifier (some .parameter) "x" []
  returnChoice : Node :=
    sampleNode .returnStatement none "" [sampleToken "return", choice none, sampleToken ";"]
  block : Node :=
    sampleNode .statementBlock (some .body) "" [sampleToken "\x7b", returnChoice,
      sampleToken "\x7d"]
  /-- The value `function (x) { return x ? 1 : 2; }`. -/
  function : Node :=
    sampleNode .functionExpression (some .value) "" [sampleToken "function", list, block]
  /-- The value `x => x ? 1 : 2`. -/
  arrow : Node :=
    sampleNode .arrowFunction (some .value) "" [single, sampleToken "=>", choice (some .body)]

theorem respelled_pick : Respelled pick.function pick.arrow := by
  have hchoice : Respelled (pick.choice none) (pick.choice (some .body)) :=
    .node rfl (fun _ => rfl) (fun _ => rfl) (List.forall₂_same.mpr fun c _ => .refl c)
  have hlist : ListsOnly pick.list pick.single :=
    ⟨rfl, ⟨rfl, rfl, rfl⟩, _, ⟨rfl, by decide⟩, Or.inl ⟨rfl, rfl, rfl⟩⟩
  have hreturns : Returns pick.block (pick.choice none) :=
    ⟨rfl, pick.returnChoice, ⟨rfl, by decide⟩, rfl, ⟨rfl, by decide⟩⟩
  have hparts : HasParts pick.function [] pick.list [] pick.block [] :=
    ⟨rfl, rfl, by decide, by decide, by decide⟩
  have hparts' : HasParts pick.arrow [] pick.single [] (pick.choice (some .body)) [] :=
    ⟨rfl, rfl, by decide, by decide, by decide⟩
  exact .arrow rfl rfl (by decide) hparts hparts' .nil (.single rfl rfl hlist) .nil
    (.value hreturns hchoice) .nil

/-- The function and the arrow function are recorded alike. -/
theorem spellings_recorded_alike_pick :
    Respelled (pick pick.function) (pick pick.arrow) ∧
    Outline.of (Findings.ofTree (pick pick.function)) = ⟨[("pick", ["x"], 2)], []⟩ ∧
    Outline.of (Findings.ofTree (pick pick.arrow)) = ⟨[("pick", ["x"], 2)], []⟩ := by
  have hplace : (pick pick.function).replace [0, 1, 2] pick.arrow = pick pick.arrow := rfl
  have htree : Respelled (pick pick.function) (pick pick.arrow) :=
    hplace ▸ respelled_pick.replace rfl (by decide) rfl rfl
  have hfunction : Outline.of (Findings.ofTree (pick pick.function))
      = ⟨[("pick", ["x"], 2)], []⟩ := by decide +kernel
  obtain ⟨-, -, houtline, -⟩ := spellings_recorded_alike htree
  exact ⟨htree, hfunction, houtline.symm.trans hfunction⟩

/-- The text `export default …;` with a value in the place of the dots. -/
def exported (value : Node) : Node := sampleNode .program none "" [statement value]
where
  statement (value : Node) : Node :=
    sampleNode .exportStatement none "" [sampleToken "export", sampleToken "default", value,
      sampleToken ";"]
  list : Node :=
    sampleNode .formalParameters (some .parameters) "()" [sampleToken "(", sampleToken ")"]
  /-- The block `{ if (a) {} }`. -/
  block : Node :=
    sampleNode .statementBlock (some .body) "" [sampleToken "\x7b",
      sampleNode .ifStatement none "" [sampleToken "if",
        sampleNode .parenthesizedExpression none "" [sampleToken "(",
          sampleNode .identifier none "a" [], sampleToken ")"],
        sampleNode .statementBlock none "\x7b\x7d" [sampleToken "\x7b", sampleToken "\x7d"]],
      sampleToken "\x7d"]
  /-- The value `function () { if (a) {} }`. -/
  function : Node :=
    sampleNode .functionExpression (some .value) "" [sampleToken "function", list, block]
  /-- The value `() => { if (a) {} }`. -/
  arrow : Node := sampleNode .arrowFunction (some .value) "" [list, sampleToken "=>", block]

theorem respelled_exported : Respelled exported.function exported.arrow := by
  have hparts : HasParts exported.function [] exported.list [] exported.block [] :=
    ⟨rfl, rfl, by decide, by decide, by decide⟩
  have hparts' : HasParts exported.arrow [] exported.list [] exported.block [] :=
    ⟨rfl, rfl, by decide, by decide, by decide⟩
  exact .arrow rfl rfl (by decide) hparts hparts' .nil (.list rfl rfl (.refl _)) .nil
    (.block (.refl _)) .nil

/-- **The spelling of what is exported by default is told apart.**  The function is recorded as
anonymous and counts for the file; the arrow function with the same parameters and body, also the
value of an export default statement, is not recorded and does not count. -/
theorem spellings_differ_in_default_export :
    Respelled exported.function exported.arrow ∧ IsUnnamedCallable exported.arrow ∧
    IsExportedByDefault ⟨some (exported.statement exported.arrow), exported.arrow⟩ ∧
    functionsAt ⟨some (exported.statement exported.arrow), exported.arrow⟩ = [] ∧
    Outline.of (Findings.ofTree (exported exported.function)) = ⟨[("anonymous", [], 2)], []⟩ ∧
    Outline.of (Findings.ofTree (exported exported.arrow)) = ⟨[], []⟩ ∧
    ∃ file file', FileRecord.ofTree "a.js" "js" 1 (exported exported.function) = .ok file ∧
      FileRecord.ofTree "a.js" "js" 1 (exported exported.arrow) = .ok file' ∧
      file.complexity.cyclomatic = 2 ∧ file'.complexity.cyclomatic = 1 := by
  have hdefault :
      IsExportedByDefault ⟨some (exported.statement exported.arrow), exported.arrow⟩ :=
    ⟨_, rfl, rfl, sampleToken "default", List.mem_cons_of_mem _ List.mem_cons_self, rfl⟩
  have hfunction : Outline.of (Findings.ofTree (exported exported.function))
      = ⟨[("anonymous", [], 2)], []⟩ := by decide +kernel
  have harrow : Outline.of (Findings.ofTree (exported exported.arrow)) = ⟨[], []⟩ := by
    decide +kernel
  obtain ⟨file, hfile⟩ : ∃ file, FileRecord.ofTree "a.js" "js" 1 (exported exported.function)
      = .ok file := FileRecord.exists_ofTree_eq_ok (by decide +kernel) (by decide +kernel)
  obtain ⟨file', hfile'⟩ : ∃ file', FileRecord.ofTree "a.js" "js" 1 (exported exported.arrow)
      = .ok file' := FileRecord.exists_ofTree_eq_ok (by decide +kernel) (by decide +kernel)
  refine ⟨respelled_exported, Or.inr rfl, hdefault, by decide +kernel, hfunction, harrow, file,
    file', hfile, hfile', ?_, ?_⟩
  · rw [cyclomatic_eq hfile, hfunction]
    rfl
  · rw [cyclomatic_eq hfile', harrow]
    rfl

end CodeAtlas.Extraction
