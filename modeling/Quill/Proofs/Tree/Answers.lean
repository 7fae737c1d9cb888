import Quill.Proofs.Grammar.Simulation
import Quill.Proofs.Stream.Session
import Quill.Proofs.Tree.Display
import Quill.Proofs.Tree.Exactness

/-!
# What parsers answer

A parser of a text can be asked for any constructs, one after the other. Whatever it answers is
derived from the tokens that the call passed over, which are tokens of the text, so all expressions
it ever gives are well-formed (`Returned.wellFormed`), and each well-formed expression is given for
some text (`Expr.WellFormed.exists_returned`). Hence no two of them are shown alike, whatever the
texts and the settings were (`display_eq_iff`).
-/

namespace Quill

variable {g : Goal} {settings : Settings} {d : Division}

/-! ## Answers are derived -/

/-- The tokens that a call has passed over, with the look-ahead, derive its answer. -/
lemma Passes.closes {m m' : Moment g} {ts : List Token} {r : g.Result} {q : Parser}
    (passes : Passes settings m ts m') (ends : Ends settings m' (.ok r) q) :
    m.state.Closes settings.division (ts.map Token.kind ++ [m'.token.kind]) r := by
  induction passes with
  | here =>
    cases ends with
    | done hs =>
      apply (closes_step (by simp [hs])).1
      rw [hs]
      rfl
  | pull hs _ ih =>
    apply (closes_step (by simp [hs])).1
    rw [hs]
    exact ih ends
  | supply hs _ ih =>
    apply (closes_step (by simp [hs])).1
    rw [hs]
    exact ih ends

/-- What was passed over and the look-ahead are tokens of the stream, or an end. -/
lemma Window.mem {items unread : List Item} {passed : List Token} {reported : List LexError}
    {t : Token} (h : Window items passed reported t unread) :
    ∀ u ∈ passed ++ [t], .ok u ∈ items ∨ u.kind = .endOfInput := by
  have mem {u : Token} {items : List Item} (hu : u ∈ tokensOf items) : .ok u ∈ items := by
    obtain ⟨item, hitem, same⟩ := List.mem_filterMap.1 hu
    cases item with
    | ok _ =>
      cases same
      exact hitem
    | error _ => cases same
  intro u hu
  cases h with
  | inside split tokens =>
    rw [← tokens] at hu
    rw [split]
    exact .inl (List.mem_append_left _ (mem hu))
  | dry =>
    obtain hu | hu := List.mem_append.1 hu
    · exact .inl (mem hu)
    · rw [List.mem_singleton.1 hu]
      exact .inr rfl

/-! ## Answers are well-formed -/

/-- The expressions of a block are well-formed if those of its statements are. -/
lemma forall_exprsOfAll {b : Block} (h : ∀ s ∈ b, ∀ e ∈ s.exprs, e.WellFormed d) :
    ∀ e ∈ Stmt.exprsOfAll b, e.WellFormed d := by
  induction b with
  | nil => exact nofun
  | cons s ss ih =>
    obtain ⟨hs, hss⟩ := List.forall_mem_cons.1 h
    exact List.forall_mem_append.2 ⟨hs, ih hss⟩

/-- The expressions of some arms are well-formed if those of each arm are. -/
lemma forall_exprsOfAll_branches {bs : List Branch}
    (h : ∀ b ∈ bs, ∀ e ∈ b.exprs, e.WellFormed d) :
    ∀ e ∈ Branch.exprsOfAll bs, e.WellFormed d := by
  induction bs with
  | nil => exact nofun
  | cons b bs ih =>
    obtain ⟨hb, hbs⟩ := List.forall_mem_cons.1 h
    exact List.forall_mem_append.2 ⟨hb, ih hbs⟩

/-- The expressions of a last arm are well-formed if those of its statements are. -/
lemma forall_exprsOfOtherwise {o : Option Block}
    (h : ∀ b ∈ o, ∀ s ∈ b, ∀ e ∈ s.exprs, e.WellFormed d) :
    ∀ e ∈ Stmt.exprsOfOtherwise o, e.WellFormed d := by
  cases o with
  | none => exact nofun
  | some b => exact forall_exprsOfAll (h b rfl)

mutual

/-- The expressions of a well-formed statement are well-formed. -/
theorem Stmt.WellFormed.exprs {s : Stmt} : s.WellFormed d → ∀ e ∈ s.exprs, e.WellFormed d
  | .assign _ he => List.forall_mem_singleton.2 he
  | .declare _ _ hb => forall_exprsOfAll fun s hs => (hb s hs).exprs
  | .giveBack he => List.forall_mem_singleton.2 he
  | .conditional _ hbs ho =>
    List.forall_mem_append.2
      ⟨forall_exprsOfAll_branches fun b hb => (hbs b hb).exprs,
        forall_exprsOfOtherwise fun b hb s hs => (ho b hb s hs).exprs⟩
  | .loop hc hb =>
    List.forall_mem_cons.2 ⟨hc, forall_exprsOfAll fun s hs => (hb s hs).exprs⟩
  | .print he => List.forall_mem_singleton.2 he
  | .expression he => List.forall_mem_singleton.2 he

/-- The expressions of a well-formed arm are well-formed. -/
theorem Branch.WellFormed.exprs {b : Branch} : b.WellFormed d → ∀ e ∈ b.exprs, e.WellFormed d
  | .arm hc hb =>
    List.forall_mem_cons.2 ⟨hc, forall_exprsOfAll fun s hs => (hb s hs).exprs⟩

end

/-- The expressions of what a parser was asked for. -/
def Goal.exprs : (g : Goal) → g.Result → List Expr
  | .expression, e => [e]
  | .statement, s => s.exprs
  | .block, b | .program, b => Stmt.exprsOfAll b

/-- What written kinds complete the start of a call with has well-formed expressions. -/
lemma wellFormed_of_closes_initial {ks : List Kind} {r : g.Result} (written : Written ks)
    (closes : (State.initial g).Closes d ks r) : ∀ e ∈ g.exprs r, e.WellFormed d := by
  cases g with
  | expression =>
    obtain ⟨e, _, derived, rfl⟩ := closes
    exact List.forall_mem_singleton.2 (derived.wellFormed written)
  | statement =>
    obtain ⟨s, _, derived, rfl⟩ := closes
    exact (derived.wellFormed written).exprs
  | block =>
    obtain ⟨b, _, derived, rfl⟩ := closes
    exact forall_exprsOfAll fun s hs => (derived.wellFormed written s hs).exprs
  | program =>
    obtain ⟨b, _, derived, _, rfl⟩ := closes
    exact forall_exprsOfAll fun s hs => (derived.wellFormed written s hs).exprs

/-- The expression is, or stands in, what a parser of some text answers after any calls. -/
inductive Returned (settings : Settings) : Expr → Prop where
  | answer {source passed reported p} {g : Goal} {r e} :
    Session settings (tokenize source) passed reported p →
    (p.parse g).1 = .ok r →
    e ∈ g.exprs r →
    Returned settings e

/-- An expression that a parse returns is well-formed. -/
theorem Returned.wellFormed {e : Expr} (h : Returned settings e) :
    e.WellFormed settings.division := by
  cases h with
  | @answer source passed reported p g r _ session parsed he =>
    obtain ⟨ts, m, passes, ends⟩ := session.exists_ends g
    rw [parsed] at ends
    refine wellFormed_of_closes_initial ?_ (passes.closes ends) e he
    have window := passes.window session.window
    intro k hk inner
    rw [← List.map_singleton, ← List.map_append] at hk
    obtain ⟨t, ht, rfl⟩ := List.mem_map.1 hk
    have seen : t ∈ passed ++ ts ++ [m.token] := by
      rw [List.append_assoc]
      exact List.mem_append_right _ ht
    obtain mem | last := window.mem t seen
    · exact spellable_of_mem mem inner
    · exact absurd last inner

/-- The expressions of the tree of a text are returned. -/
lemma returned_of_parse {source : String} {b : Block} {e : Expr}
    (parsed : parseText settings source = .ok b) (he : e ∈ Stmt.exprsOfAll b) :
    Returned settings e := by
  rw [parseText, parseItems] at parsed
  cases started : Parser.start settings (tokenize source) with
  | error _ =>
    rw [started] at parsed
    cases parsed
  | ok p =>
    rw [started] at parsed
    exact .answer (.start started) parsed he

/-- Every well-formed expression is returned under some limit, for the text of a program that is
nothing else. -/
theorem Expr.WellFormed.exists_returned {e : Expr} (h : e.WellFormed d) :
    ∃ limit, Returned ⟨d, limit⟩ e := by
  have alone : Block.WellFormed d [.expression e] := List.forall_mem_singleton.2 (.expression h)
  obtain ⟨ks, spellable, derived⟩ := alone.exists_kinds
  obtain ⟨source, limit, parsed⟩ := exists_parse_of_kinds spellable derived
  exact ⟨limit, returned_of_parse parsed List.mem_cons_self⟩

/-! ## Shown answers -/

/-- No reserved word is a single letter. -/
lemma isIdentifier_of_letter {x : String} {c : Char} (text : x.toList = [c])
    (letter : c.isAlpha = true) : IsIdentifier x where
  word := ⟨c, [], text, .inl letter, nofun⟩
  name := by
    rintro w rfl
    have longer : w.text.toList.length ≠ 1 := by cases w <;> decide
    exact longer (by rw [text, List.length_singleton])

/-- No two expressions are shown alike that parsers ever return, from any texts, with any settings
and after any calls. -/
theorem display_eq_iff {settings settings' : Settings} {e e' : Expr} (h : Returned settings e)
    (h' : Returned settings' e') : e.display = e'.display ↔ e = e' :=
  h.wellFormed.display_inj h'.wellFormed

/-- The text of a call with two arguments is no other's, not even that of the call it would be
read as. -/
theorem display_of_arguments :
    (Expr.call "f" [.ref "x", .unary .negate (.ref "y")]).display = "f(x -y)" ∧
    (Expr.call "f" [.binary .sub (.ref "x") (.ref "y")]).display = "f((x - y))" ∧
    ((Expr.call "f" [.ref "x", .unary .negate (.ref "y")]).display =
        (Expr.call "f" [.binary .sub (.ref "x") (.ref "y")]).display ↔
      Expr.call "f" [.ref "x", .unary .negate (.ref "y")] =
        .call "f" [.binary .sub (.ref "x") (.ref "y")]) := by
  have f : IsIdentifier "f" := isIdentifier_of_letter rfl rfl
  have x : IsIdentifier "x" := isIdentifier_of_letter rfl rfl
  have y : IsIdentifier "y" := isIdentifier_of_letter rfl rfl
  obtain ⟨_, two⟩ := @Expr.WellFormed.exists_returned .distinct _ <|
    .call f <| List.forall_mem_cons.2 ⟨.ref x, List.forall_mem_singleton.2 (.unary (.ref y))⟩
  obtain ⟨_, one⟩ := @Expr.WellFormed.exists_returned .distinct _ <|
    .call f <| List.forall_mem_singleton.2 (.binary trivial (.ref x) (.ref y))
  exact ⟨by decide, by decide, display_eq_iff two one⟩

end Quill
