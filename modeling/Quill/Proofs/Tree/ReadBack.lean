import Quill.Proofs.Json.Rewriting
import Quill.Proofs.Number.Written
import Quill.Proofs.Tree.Numbers
import Quill.Tree.Read

/-!
# Written trees are read back

What the readers make of a written tree, however it is rewritten. Every form is told by its tag and
every field is found under its name, so the tree comes back as it was, but for its numbers: each
becomes the double that its text is read as. If anything in it is damaged, the tree is refused. The
readers are done before they run out of room, since a node takes one level of room and at least one
of nesting.
-/

namespace Quill

/-! ## Tags -/

/-- The form of an expression is told by its name. -/
lemma namedOrPlaced?_exprForm (form : ExprForm) :
    Json.namedOrPlaced? ExprForm.all ExprForm.name (.text form.name) = some form := by
  cases form <;> decide

/-- A binary operator is told by its name. -/
lemma caseNamed?_binaryOp (op : BinaryOp) :
    Json.caseNamed? true BinaryOp.ofName? (.text op.name) = some op := by
  cases op <;> decide

/-- A unary operator is told by its name. -/
lemma caseNamed?_unaryOp (op : UnaryOp) :
    Json.caseNamed? true UnaryOp.ofName? (.text op.name) = some op := by
  cases op <;> decide

/-- At the root and below it, a statement's form is told by its name. -/
lemma readStmtForm?_name (atRoot : Bool) (form : StmtForm) :
    readStmtForm? atRoot (.text form.name) = some form := by
  cases atRoot <;> cases form <;> decide

variable {extra : Option String → Json → Prop} {intact : Bool} {v : Json}

/-- A result, if nothing is damaged. -/
def ifIntact {α : Type} (intact : Bool) (a : α) : Option α :=
  bif intact then some a else none

section

variable {α β : Type} {a : α}

/-- A reader goes on with what it has found. -/
lemma bind_some (f : α → Option β) : (some a >>= f) = f a := rfl

/-- A reader goes on with a result if that is intact. -/
lemma bind_ifIntact (f : α → Option β) :
    (ifIntact intact a >>= f) = bif intact then f a else none := by
  cases intact <;> rfl

/-- What is made of a result is intact if the result is. -/
lemma map_ifIntact (f : α → β) : (ifIntact intact a).map f = ifIntact intact (f a) := by
  cases intact <;> rfl

/-- A result is damaged if a part of it is. -/
lemma ifIntact_and (intact' : Bool) :
    ifIntact (intact && intact') a = bif intact then ifIntact intact' a else none := by
  cases intact <;> rfl

end

section

variable {fields : List (String × Json)} {names : List String} {n : Nat}

/-- What stands in a node nests one level less. -/
lemma nesting_node_le {form : String} (h : (node form fields).nesting ≤ n) :
    ∃ m, n = m + 1 ∧ ∀ f ∈ fields, f.2.nesting ≤ m := by
  obtain ⟨m, hm, inner⟩ := Json.nesting_record_le h
  exact ⟨m, hm, (List.forall_mem_cons.1 inner).2⟩

/-- What stands in a block nests two levels less. -/
lemma nesting_blockRecord_le {statements : List Json} (h : (blockRecord statements).nesting ≤ n) :
    ∃ m, n = m + 2 ∧ ∀ v ∈ statements, v.nesting ≤ m := by
  obtain ⟨k, rfl, fields⟩ := Json.nesting_record_le h
  obtain ⟨m, rfl, inner⟩ := Json.nesting_array_le (fields _ List.mem_cons_self)
  exact ⟨m, rfl, inner⟩

variable {α : Type} {a : α}

/-- A reader of nodes gets the tag of its form and the fields behind it. -/
lemma bind_tagged {form : String} {read : Json × Json → Option α}
    (untagged : "kind" ∉ fields.map Prod.fst) (h : Json.Rewritten extra intact (node form fields) v)
    (each : ∀ body, Json.Rewritten extra intact (.record fields) body →
      read (.text form, body) = ifIntact intact a) :
    (v.tagged? >>= read) = ifIntact intact a := by
  obtain ⟨rfl, refused⟩ | ⟨body, tagged, rewritten⟩ :=
    Json.tagged?_rewritten (Json.isScalar_text form) untagged h
  · rw [refused]
    rfl
  · rw [tagged]
    exact each body rewritten

/-- A reader of records gets what has become of each field. -/
lemma bind_fields {read : List (Option Json) → Option α} (keys : fields.map Prod.fst = names)
    (distinct : names.Nodup) (h : Json.Rewritten extra intact (.record fields) v)
    (each : ∀ left, Json.RewrittenMembers extra intact (Json.membersOf fields) left →
      read left = ifIntact intact a) :
    (v.fields? names >>= read) = ifIntact intact a := by
  subst keys
  obtain ⟨rfl, refused⟩ | ⟨left, found, members⟩ := Json.fields?_rewritten distinct h
  · rw [refused]
    rfl
  · rw [found]
    exact each left members

/-- A reader that needs all of the fields gets their values. -/
lemma bind_values {read : List (Option Json) → Option α} (keys : fields.map Prod.fst = names)
    (distinct : names.Nodup) (needed : "otherwise" ∉ names)
    (h : Json.Rewritten extra intact (.record fields) v)
    (incomplete : ∀ left, none ∈ left → read left = none)
    (each : ∀ ws, Json.RewrittenItems extra intact (fields.map Prod.snd) ws →
      read (ws.map some) = ifIntact intact a) :
    (v.fields? names >>= read) = ifIntact intact a := by
  refine bind_fields keys distinct h fun left members => ?_
  obtain ⟨rfl, absent⟩ | ⟨ws, rfl, items⟩ := members.complete (keys ▸ needed)
  · exact incomplete left absent
  · exact each ws items

/-- A reader of nodes that is told the form by the tag, and then needs all of the fields, gets their
values. -/
lemma bind_node {form : String} {read : Json × Json → Option α}
    {next : List (Option Json) → Option α} (keys : fields.map Prod.fst = names)
    (distinct : ("kind" :: "otherwise" :: names).Nodup)
    (h : Json.Rewritten extra intact (node form fields) v)
    (reads : ∀ body, read (.text form, body) = (body.fields? names >>= next))
    (incomplete : ∀ left, none ∈ left → next left = none)
    (each : ∀ ws, Json.RewrittenItems extra intact (fields.map Prod.snd) ws →
      next (ws.map some) = ifIntact intact a) :
    (v.tagged? >>= read) = ifIntact intact a := by
  obtain ⟨untagged, distinct⟩ := List.nodup_cons.1 distinct
  obtain ⟨needed, distinct⟩ := List.nodup_cons.1 distinct
  refine bind_tagged ?_ h fun body rewritten => ?_
  · rw [keys]
    exact fun mem => untagged (List.mem_cons_of_mem _ mem)
  · rw [reads]
    exact bind_values keys distinct needed rewritten incomplete each

/-- What has become of the value is read as `a` if nothing in it is damaged, and refused
otherwise. -/
def ReadsBack (extra : Option String → Json → Prop) (read : Json → Option α) (w : Json) (a : α) :
    Prop :=
  ∀ intact v, Json.Rewritten extra intact w v → read v = ifIntact intact a

/-- What has become of the values is read as `as` if nothing in them is damaged, and refused
otherwise. -/
def ReadsBackAll (extra : Option String → Json → Prop) (read : Json → Option α) (ws : List Json)
    (as : List α) : Prop :=
  ∀ intact vs, Json.RewrittenItems extra intact ws vs → vs.mapM read = ifIntact intact as

/-- No values are read back as none. -/
lemma readsBackAll_nil {read : Json → Option α} : ReadsBackAll extra read [] [] := by
  intro intact vs rewritten
  cases rewritten
  rfl

/-- Values are read back if the first and the others are. -/
lemma ReadsBack.cons {read : Json → Option α} {w : Json} {ws : List Json} {as : List α}
    (head : ReadsBack extra read w a) (tail : ReadsBackAll extra read ws as) :
    ReadsBackAll extra read (w :: ws) (a :: as) := by
  intro intact vs rewritten
  obtain _ | ⟨first, rest⟩ := rewritten
  rw [List.mapM_cons, head _ _ first, tail _ _ rest]
  simp only [bind_ifIntact, ifIntact_and]
  rfl

/-- A value without parts is read as it was written. -/
lemma readsBack_of_isScalar {read : Json → Option α} {w : Json} (scalar : w.IsScalar)
    (h : read w = some a) : ReadsBack extra read w a := by
  intro intact v rewritten
  obtain ⟨rfl, rfl⟩ := rewritten.eq_of_isScalar scalar
  exact h

/-- What is made of a value that is read back is read back. -/
lemma ReadsBack.map {β : Type} {read : Json → Option α} {w : Json} (h : ReadsBack extra read w a)
    (make : α → β) : ReadsBack extra (fun v => (read v).map make) w (make a) := by
  intro intact v rewritten
  simp only [h intact v rewritten, map_ifIntact]

/-- What a reader of one field makes of the fields of a record. -/
def readOnly? (read : Json → Option α) : List (Option Json) → Option α
  | [some w] => read w
  | _ => none

/-- A reader of nodes that needs one field gets what is read back of it. -/
lemma bind_only {form name : String} {w : Json} {read : Json × Json → Option α}
    {readField : Json → Option α} (other : ["kind", "otherwise", name].Nodup)
    (h : Json.Rewritten extra intact (node form [(name, w)]) v)
    (reads : ∀ body, read (.text form, body) = (body.fields? [name] >>= readOnly? readField))
    (field : ReadsBack extra readField w a) : (v.tagged? >>= read) = ifIntact intact a := by
  have keys : [(name, w)].map Prod.fst = [name] := rfl
  refine bind_node keys other h reads (fun left absent => ?_) fun ws items => ?_
  · unfold readOnly?
    split <;> simp_all
  · obtain _ | ⟨head, _ | _⟩ := items
    rw [Bool.and_true]
    exact field _ _ head

end

/-- A text is read as a text. -/
lemma asText?_text (s : String) : (Json.text s).asText? = some s := rfl

/-- An array is read as its items. -/
lemma asItems?_array (vs : List Json) : (Json.array vs).asItems? = some vs := rfl

/-- Texts are read as they are. -/
lemma readsBackAll_texts (ss : List String) :
    ReadsBackAll extra Json.asText? (ss.map Json.text) ss := by
  induction ss with
  | nil => exact readsBackAll_nil
  | cons s ss ih => exact (readsBack_of_isScalar (Json.isScalar_text s) (asText?_text s)).cons ih

/-! ## Expressions -/

/-- A number has no parts. -/
lemma isScalar_toJson (x : Double) : x.toJson.IsScalar := trivial

/-- A number is read as the double that its text is read as. -/
lemma asDouble?_toJson (x : Double) : x.toJson.asDouble? = some x.reread := by
  rw [Double.toJson, Json.asDouble?, Double.double?_write]

section

variable {room : Nat}

/-- A binary expression is read back if both of its operands are. -/
lemma readExpr?_binary {op : BinaryOp} {l r l' r' : Expr}
    (left : ReadsBack extra (readExpr? room) l.toJson l')
    (right : ReadsBack extra (readExpr? room) r.toJson r') :
    ReadsBack extra (readExpr? (room + 1)) (Expr.binary op l r).toJson (.binary op l' r') := by
  intro intact v rewritten
  refine bind_node rfl (by simp) rewritten
    (fun _ => by simp only [namedOrPlaced?_exprForm, bind_some]; rfl)
    (fun fields absent => by split <;> simp_all) fun ws items => ?_
  obtain _ | ⟨op', _ | ⟨l', _ | ⟨r', _ | _⟩⟩⟩ := items
  obtain ⟨rfl, rfl⟩ := op'.eq_of_isScalar (Json.isScalar_text _)
  simp only [List.map_cons, List.map_nil, caseNamed?_binaryOp, bind_some, left _ _ l', right _ _ r',
    bind_ifIntact, ifIntact_and, Bool.true_and, Bool.and_true]
  rfl

/-- A unary expression is read back if its operand is. -/
lemma readExpr?_unary {op : UnaryOp} {e e' : Expr}
    (operand : ReadsBack extra (readExpr? room) e.toJson e') :
    ReadsBack extra (readExpr? (room + 1)) (Expr.unary op e).toJson (.unary op e') := by
  intro intact v rewritten
  refine bind_node rfl (by simp) rewritten
    (fun _ => by simp only [namedOrPlaced?_exprForm, bind_some]; rfl)
    (fun fields absent => by split <;> simp_all) fun ws items => ?_
  obtain _ | ⟨op', _ | ⟨e', _ | _⟩⟩ := items
  obtain ⟨rfl, rfl⟩ := op'.eq_of_isScalar (Json.isScalar_text _)
  simp only [List.map_cons, List.map_nil, caseNamed?_unaryOp, bind_some, operand _ _ e',
    bind_ifIntact, Bool.true_and, Bool.and_true]
  rfl

/-- A number is read back as the double that its text is read as. -/
lemma readExpr?_number (x : Double) :
    ReadsBack extra (readExpr? (room + 1)) (Expr.number x).toJson (.number x.reread) := by
  intro intact v rewritten
  refine bind_only (by simp) rewritten
    (fun _ => by simp only [namedOrPlaced?_exprForm, bind_some]; rfl) <|
      readsBack_of_isScalar (isScalar_toJson x) ?_
  rw [asDouble?_toJson]
  rfl

/-- A string is read back. -/
lemma readExpr?_string (s : String) :
    ReadsBack extra (readExpr? (room + 1)) (Expr.string s).toJson (.string s) := by
  intro intact v rewritten
  exact bind_only (by simp) rewritten
    (fun _ => by simp only [namedOrPlaced?_exprForm, bind_some]; rfl)
    (readsBack_of_isScalar (Json.isScalar_text s) rfl)

/-- A truth value is read back. -/
lemma readExpr?_bool (b : Bool) :
    ReadsBack extra (readExpr? (room + 1)) (Expr.bool b).toJson (.bool b) := by
  intro intact v rewritten
  exact bind_only (by simp) rewritten
    (fun _ => by simp only [namedOrPlaced?_exprForm, bind_some]; rfl)
    (readsBack_of_isScalar (Json.isScalar_bool b) rfl)

/-- The value that is none is read back. It has no fields. -/
lemma readExpr?_none : ReadsBack extra (readExpr? (room + 1)) Expr.none.toJson .none := by
  intro intact v rewritten
  refine bind_tagged (by simp) rewritten fun body untagged => ?_
  simp only [namedOrPlaced?_exprForm, bind_some, Option.map_eq_bind, ← Option.bind_eq_bind]
  refine bind_fields rfl (by decide) untagged fun left members => ?_
  cases members
  rfl

/-- A variable is read back. -/
lemma readExpr?_ref (x : String) :
    ReadsBack extra (readExpr? (room + 1)) (Expr.ref x).toJson (.ref x) := by
  intro intact v rewritten
  exact bind_only (by simp) rewritten
    (fun _ => by simp only [namedOrPlaced?_exprForm, bind_some]; rfl)
    (readsBack_of_isScalar (Json.isScalar_text x) rfl)

/-- A call is read back if its arguments are. -/
lemma readExpr?_call {f : String} {args args' : List Expr}
    (each : ReadsBackAll extra (readExpr? room) (Expr.toJsonAll args) args') :
    ReadsBack extra (readExpr? (room + 1)) (Expr.call f args).toJson (.call f args') := by
  intro intact v rewritten
  refine bind_node rfl (by simp) rewritten
    (fun _ => by simp only [namedOrPlaced?_exprForm, bind_some]; rfl)
    (fun left absent => by split <;> simp_all) fun ws items => ?_
  obtain _ | ⟨f', _ | ⟨args', _ | _⟩⟩ := items
  obtain ⟨rfl, rfl⟩ := f'.eq_of_isScalar (Json.isScalar_text f)
  obtain ⟨items, rfl, inside⟩ := args'.array
  simp only [List.map_cons, List.map_nil, asText?_text, asItems?_array, bind_some,
    each _ _ inside, bind_ifIntact, Bool.true_and, Bool.and_true]
  rfl

end

mutual

/-- An expression is read back however it is rewritten, if there is room for it. -/
theorem readExpr?_rewritten :
    ∀ (e : Expr) (room : Nat), e.toJson.nesting ≤ room →
      ReadsBack extra (readExpr? room) e.toJson (e.mapNumbers Double.reread)
  | .binary op l r, room, h => by
    rw [Expr.toJson] at h
    obtain ⟨room, rfl, inner⟩ := nesting_node_le h
    simp only [List.forall_mem_cons] at inner
    obtain ⟨_, hl, hr, _⟩ := inner
    rw [Expr.mapNumbers]
    exact readExpr?_binary (readExpr?_rewritten l room hl) (readExpr?_rewritten r room hr)
  | .unary op e, room, h => by
    rw [Expr.toJson] at h
    obtain ⟨room, rfl, inner⟩ := nesting_node_le h
    simp only [List.forall_mem_cons] at inner
    obtain ⟨_, he, _⟩ := inner
    rw [Expr.mapNumbers]
    exact readExpr?_unary (readExpr?_rewritten e room he)
  | .number x, room, h => by
    rw [Expr.toJson] at h
    obtain ⟨room, rfl, _⟩ := nesting_node_le h
    exact readExpr?_number x
  | .string s, room, h => by
    rw [Expr.toJson] at h
    obtain ⟨room, rfl, _⟩ := nesting_node_le h
    exact readExpr?_string s
  | .bool b, room, h => by
    rw [Expr.toJson] at h
    obtain ⟨room, rfl, _⟩ := nesting_node_le h
    exact readExpr?_bool b
  | .none, room, h => by
    rw [Expr.toJson] at h
    obtain ⟨room, rfl, _⟩ := nesting_node_le h
    exact readExpr?_none
  | .ref x, room, h => by
    rw [Expr.toJson] at h
    obtain ⟨room, rfl, _⟩ := nesting_node_le h
    exact readExpr?_ref x
  | .call f args, room, h => by
    rw [Expr.toJson] at h
    obtain ⟨room, rfl, inner⟩ := nesting_node_le h
    simp only [List.forall_mem_cons] at inner
    obtain ⟨_, ha, _⟩ := inner
    obtain ⟨m, rfl, each⟩ := Json.nesting_array_le ha
    rw [Expr.mapNumbers]
    exact readExpr?_call <|
      readExpr?_rewrittenAll args (m + 1) fun v hv => Nat.le_succ_of_le (each v hv)

/-- So is every expression of a list. -/
theorem readExpr?_rewrittenAll :
    ∀ (es : List Expr) (room : Nat), (∀ v ∈ Expr.toJsonAll es, v.nesting ≤ room) →
      ReadsBackAll extra (readExpr? room) (Expr.toJsonAll es)
        (Expr.mapNumbersOfAll Double.reread es)
  | [], _, _ => by
    rw [Expr.toJsonAll, Expr.mapNumbersOfAll]
    exact readsBackAll_nil
  | e :: es, room, h => by
    rw [Expr.toJsonAll] at h ⊢
    obtain ⟨he, hes⟩ := List.forall_mem_cons.1 h
    rw [Expr.mapNumbersOfAll]
    exact (readExpr?_rewritten e room he).cons (readExpr?_rewrittenAll es room hes)

end

/-! ## Statements -/

/-- The block with every number as it is read back. -/
def rereadBlock (b : Block) : Block :=
  Stmt.mapExprsOfAll (Expr.mapNumbers Double.reread) b

/-- Only a last arm that is not there is written as null. -/
lemma eq_none_of_toJsonOrNull {o : Option (List Stmt)} (h : Stmt.toJsonOrNull o = .null) :
    o = none := by
  cases o with
  | none => rfl
  | some _ =>
    rw [Stmt.toJsonOrNull] at h
    cases h

section

variable {room : Nat} {atRoot : Bool}

/-- A block is read back if its statements are. -/
lemma readBlock?_record {statements : List Json} {b : Block}
    (each : ReadsBackAll extra (readStmt? false room) statements b) :
    ReadsBack extra (readBlock? (room + 1)) (blockRecord statements) b := by
  intro intact v rewritten
  refine bind_values rfl (by decide) (by decide) rewritten (fun left absent => ?_)
    fun ws items => ?_
  · split <;> simp_all
  · obtain _ | ⟨statements', _ | _⟩ := items
    obtain ⟨vs, rfl, inside⟩ := statements'.array
    simp only [List.map_cons, List.map_nil, asItems?_array, bind_some, Bool.and_true]
    exact each _ _ inside

/-- An assignment is read back if its value is. -/
lemma readStmt?_assign {scope : Scope} {x : String} {e e' : Expr}
    (value : ReadsBack extra (readExpr? room) e.toJson e') :
    ReadsBack extra (readStmt? atRoot (room + 1)) (Stmt.assign scope x e).toJson
      (.assign scope x e') := by
  intro intact v rewritten
  refine bind_tagged (by simp) rewritten fun body untagged => ?_
  -- Both forms have the same fields, and each is read by a branch of its own.
  cases scope <;>
  · simp only [StmtForm.ofScope, readStmtForm?_name, bind_some]
    refine bind_values rfl (by decide) (by decide) untagged (fun left absent => ?_)
      fun ws items => ?_
    · split <;> simp_all
    · obtain _ | ⟨x', _ | ⟨e', _ | _⟩⟩ := items
      obtain ⟨rfl, rfl⟩ := x'.eq_of_isScalar (Json.isScalar_text x)
      simp only [List.map_cons, List.map_nil, asText?_text, bind_some, value _ _ e', bind_ifIntact,
        Bool.true_and, Bool.and_true]
      rfl

/-- A declaration is read back if its body is. -/
lemma readStmt?_declare {f : String} {params : List String} {body body' : Block}
    (block : ReadsBack extra (readBlock? room) (blockRecord (Stmt.toJsonAll body)) body') :
    ReadsBack extra (readStmt? atRoot (room + 1)) (Stmt.declare f params body).toJson
      (.declare f params body') := by
  intro intact v rewritten
  refine bind_node rfl (by simp) rewritten
    (fun _ => by simp only [readStmtForm?_name, bind_some]; rfl)
    (fun left absent => by split <;> simp_all) fun ws items => ?_
  obtain _ | ⟨f', _ | ⟨params', _ | ⟨body', _ | _⟩⟩⟩ := items
  obtain ⟨rfl, rfl⟩ := f'.eq_of_isScalar (Json.isScalar_text f)
  obtain ⟨vs, rfl, names⟩ := params'.array
  simp only [List.map_cons, List.map_nil, asText?_text, asItems?_array, bind_some,
    readsBackAll_texts params _ _ names, block _ _ body', bind_ifIntact, ifIntact_and,
    Bool.true_and, Bool.and_true]
  rfl

/-- A return is read back if its value is. -/
lemma readStmt?_giveBack {e e' : Expr} (value : ReadsBack extra (readExpr? room) e.toJson e') :
    ReadsBack extra (readStmt? atRoot (room + 1)) (Stmt.giveBack e).toJson (.giveBack e') := by
  intro intact v rewritten
  exact bind_only (by simp) rewritten
    (fun _ => by simp only [readStmtForm?_name, bind_some]; rfl) (value.map Stmt.giveBack)

/-- A print is read back if its value is. -/
lemma readStmt?_print {e e' : Expr} (value : ReadsBack extra (readExpr? room) e.toJson e') :
    ReadsBack extra (readStmt? atRoot (room + 1)) (Stmt.print e).toJson (.print e') := by
  intro intact v rewritten
  exact bind_only (by simp) rewritten
    (fun _ => by simp only [readStmtForm?_name, bind_some]; rfl) (value.map Stmt.print)

/-- An expression that is a statement is read back if it is read back alone. -/
lemma readStmt?_expression {e e' : Expr} (value : ReadsBack extra (readExpr? room) e.toJson e') :
    ReadsBack extra (readStmt? atRoot (room + 1)) (Stmt.expression e).toJson (.expression e') := by
  intro intact v rewritten
  exact bind_only (by simp) rewritten
    (fun _ => by simp only [readStmtForm?_name, bind_some]; rfl) (value.map Stmt.expression)

/-- A loop is read back if its condition and its body are. -/
lemma readStmt?_loop {c c' : Expr} {body body' : Block}
    (condition : ReadsBack extra (readExpr? room) c.toJson c')
    (block : ReadsBack extra (readBlock? room) (blockRecord (Stmt.toJsonAll body)) body') :
    ReadsBack extra (readStmt? atRoot (room + 1)) (Stmt.loop c body).toJson (.loop c' body') := by
  intro intact v rewritten
  refine bind_node rfl (by simp) rewritten
    (fun _ => by simp only [readStmtForm?_name, bind_some]; rfl)
    (fun left absent => by split <;> simp_all) fun ws items => ?_
  obtain _ | ⟨c', _ | ⟨body', _ | _⟩⟩ := items
  simp only [List.map_cons, List.map_nil, condition _ _ c', block _ _ body', bind_ifIntact,
    ifIntact_and, Bool.and_true]
  rfl

/-- A conditional is read back if its arms are, and it may lose its last arm if that is null. -/
lemma readStmt?_conditional {branches branches' : List Branch} {otherwise otherwise' : Option Block}
    (arms : ReadsBackAll extra (readBranch? (room + 1)) (Branch.toJsonAll branches) branches')
    (last : ReadsBack extra (fun v => readOtherwise? (room + 1) (some v))
      (Stmt.toJsonOrNull otherwise) otherwise')
    (absent : otherwise = none → otherwise' = none) :
    ReadsBack extra (readStmt? atRoot (room + 1 + 1)) (Stmt.conditional branches otherwise).toJson
      (.conditional branches' otherwise') := by
  intro intact v rewritten
  refine bind_tagged (by simp) rewritten fun body untagged => ?_
  simp only [readStmtForm?_name, bind_some]
  refine bind_fields rfl (by decide) untagged fun left members => ?_
  obtain ⟨o, left, _, rfl, others, fate⟩ := Json.rewrittenMembers_cons members
  -- The arms are needed, the last one is not, so the two fields are looked at one by one.
  obtain ⟨_, _, rfl, each, rfl⟩ | ⟨_, same, _⟩ | ⟨rfl, _, rfl⟩ := fate
  · obtain ⟨vs, rfl, inside⟩ := each.array
    obtain ⟨o, left, _, rfl, nothing, fate⟩ := Json.rewrittenMembers_cons others
    cases nothing
    obtain ⟨_, _, rfl, arm, rfl⟩ | ⟨rfl, _, null, rfl⟩ | ⟨_, other, _⟩ := fate
    · simp only [asItems?_array, bind_some, arms _ _ inside, last _ _ arm, bind_ifIntact,
        ifIntact_and, Bool.and_true]
      rfl
    · rw [absent (eq_none_of_toJsonOrNull null)]
      simp only [asItems?_array, bind_some, arms _ _ inside, bind_ifIntact, readOtherwise?,
        Bool.and_true]
      rfl
    · exact absurd rfl other
  · exact absurd (Option.some.inj same) (by simp)
  · rfl

/-- No last arm is read as none. -/
lemma readOtherwise?_none :
    ReadsBack extra (fun v => readOtherwise? (room + 1) (some v)) (Stmt.toJsonOrNull none)
      none := by
  intro intact v rewritten
  obtain ⟨rfl, rfl⟩ := rewritten.eq_of_isScalar Json.isScalar_null
  simp only [readOtherwise?]
  rfl

/-- A last arm is read back if its block is. -/
lemma readOtherwise?_some {body body' : Block}
    (block : ReadsBack extra (readBlock? room) (blockRecord (Stmt.toJsonAll body)) body') :
    ReadsBack extra (fun v => readOtherwise? (room + 1) (some v)) (Stmt.toJsonOrNull (some body))
      (some body') := by
  intro intact v rewritten
  have some_arm : v ≠ .null := by
    rintro rfl
    cases rewritten
  simp only [readOtherwise?, block _ _ rewritten, map_ifIntact]

/-- An arm is read back if its condition and its block are. -/
lemma readBranch?_arm {c c' : Expr} {body body' : Block}
    (condition : ReadsBack extra (readExpr? room) c.toJson c')
    (block : ReadsBack extra (readBlock? room) (blockRecord (Stmt.toJsonAll body)) body') :
    ReadsBack extra (readBranch? (room + 1)) (Branch.arm c body).toJson (.arm c' body') := by
  intro intact v rewritten
  refine bind_values rfl (by decide) (by decide) rewritten (fun left absent => ?_)
    fun ws items => ?_
  · split <;> simp_all
  · obtain _ | ⟨c', _ | ⟨body', _ | _⟩⟩ := items
    simp only [List.map_cons, List.map_nil, condition _ _ c', block _ _ body', bind_ifIntact,
      ifIntact_and, Bool.and_true]
    rfl

end

mutual

/-- A statement is read back however it is rewritten, if there is room for it. -/
theorem readStmt?_rewritten :
    ∀ (s : Stmt) (atRoot : Bool) (room : Nat), s.toJson.nesting ≤ room →
      ReadsBack extra (readStmt? atRoot room) s.toJson
        (s.mapExprs (Expr.mapNumbers Double.reread))
  | .assign scope x e, atRoot, room, h => by
    rw [Stmt.toJson] at h
    obtain ⟨room, rfl, inner⟩ := nesting_node_le h
    simp only [List.forall_mem_cons] at inner
    obtain ⟨_, he, _⟩ := inner
    rw [Stmt.mapExprs]
    exact readStmt?_assign (readExpr?_rewritten e room he)
  | .declare f params body, atRoot, room, h => by
    rw [Stmt.toJson] at h
    obtain ⟨room, rfl, inner⟩ := nesting_node_le h
    simp only [List.forall_mem_cons] at inner
    obtain ⟨_, _, hb, _⟩ := inner
    rw [Stmt.mapExprs]
    exact readStmt?_declare (readBlock?_rewritten body room hb)
  | .giveBack e, atRoot, room, h => by
    rw [Stmt.toJson] at h
    obtain ⟨room, rfl, inner⟩ := nesting_node_le h
    rw [Stmt.mapExprs]
    exact readStmt?_giveBack (readExpr?_rewritten e room (inner _ List.mem_cons_self))
  | .conditional branches otherwise, atRoot, room, h => by
    rw [Stmt.toJson] at h
    obtain ⟨room, rfl, inner⟩ := nesting_node_le h
    simp only [List.forall_mem_cons] at inner
    obtain ⟨hb, ho, _⟩ := inner
    obtain ⟨m, rfl, each⟩ := Json.nesting_array_le hb
    rw [Stmt.mapExprs]
    refine readStmt?_conditional
      (readBranch?_rewrittenAll branches (m + 1) fun v hv => Nat.le_succ_of_le (each v hv))
      (readOtherwise?_rewritten otherwise m ho) ?_
    rintro rfl
    rfl
  | .loop c body, atRoot, room, h => by
    rw [Stmt.toJson] at h
    obtain ⟨room, rfl, inner⟩ := nesting_node_le h
    simp only [List.forall_mem_cons] at inner
    obtain ⟨hc, hb, _⟩ := inner
    rw [Stmt.mapExprs]
    exact readStmt?_loop (readExpr?_rewritten c room hc) (readBlock?_rewritten body room hb)
  | .print e, atRoot, room, h => by
    rw [Stmt.toJson] at h
    obtain ⟨room, rfl, inner⟩ := nesting_node_le h
    rw [Stmt.mapExprs]
    exact readStmt?_print (readExpr?_rewritten e room (inner _ List.mem_cons_self))
  | .expression e, atRoot, room, h => by
    rw [Stmt.toJson] at h
    obtain ⟨room, rfl, inner⟩ := nesting_node_le h
    rw [Stmt.mapExprs]
    exact readStmt?_expression (readExpr?_rewritten e room (inner _ List.mem_cons_self))

/-- So is every statement of a block. -/
theorem readStmt?_rewrittenAll :
    ∀ (ss : List Stmt) (atRoot : Bool) (room : Nat), (∀ v ∈ Stmt.toJsonAll ss, v.nesting ≤ room) →
      ReadsBackAll extra (readStmt? atRoot room) (Stmt.toJsonAll ss) (rereadBlock ss)
  | [], _, _, _ => by
    rw [Stmt.toJsonAll, rereadBlock, Stmt.mapExprsOfAll]
    exact readsBackAll_nil
  | s :: ss, atRoot, room, h => by
    rw [Stmt.toJsonAll] at h ⊢
    obtain ⟨hs, hss⟩ := List.forall_mem_cons.1 h
    rw [rereadBlock, Stmt.mapExprsOfAll]
    exact (readStmt?_rewritten s atRoot room hs).cons (readStmt?_rewrittenAll ss atRoot room hss)

/-- A block below the root is read back. It takes two levels of nesting, and one of room. -/
theorem readBlock?_rewritten :
    ∀ (ss : List Stmt) (room : Nat), (blockRecord (Stmt.toJsonAll ss)).nesting ≤ room →
      ReadsBack extra (readBlock? room) (blockRecord (Stmt.toJsonAll ss)) (rereadBlock ss)
  | ss, room, h => by
    obtain ⟨m, rfl, each⟩ := nesting_blockRecord_le h
    exact readBlock?_record <|
      readStmt?_rewrittenAll ss false (m + 1) fun v hv => Nat.le_succ_of_le (each v hv)

/-- The last arm of a conditional is read with one level more than its block needs. -/
theorem readOtherwise?_rewritten :
    ∀ (o : Option (List Stmt)) (room : Nat), (Stmt.toJsonOrNull o).nesting ≤ room + 1 →
      ReadsBack extra (fun v => readOtherwise? (room + 1) (some v)) (Stmt.toJsonOrNull o)
        (Stmt.mapExprsOfOtherwise (Expr.mapNumbers Double.reread) o)
  | .none, room, _ => readOtherwise?_none
  | .some body, room, h => by
    rw [Stmt.toJsonOrNull] at h
    obtain ⟨m, hm, each⟩ := nesting_blockRecord_le h
    obtain rfl : room = m + 1 := by omega
    rw [Stmt.mapExprsOfOtherwise]
    exact readOtherwise?_some (readBlock?_record (readStmt?_rewrittenAll body false m each))

/-- An arm is read back if there is room for it. -/
theorem readBranch?_rewritten :
    ∀ (b : Branch) (room : Nat), b.toJson.nesting ≤ room →
      ReadsBack extra (readBranch? room) b.toJson (b.mapExprs (Expr.mapNumbers Double.reread))
  | .arm c body, room, h => by
    rw [Branch.toJson] at h
    obtain ⟨room, rfl, inner⟩ := Json.nesting_record_le h
    simp only [List.forall_mem_cons] at inner
    obtain ⟨hc, hb, _⟩ := inner
    rw [Branch.mapExprs]
    exact readBranch?_arm (readExpr?_rewritten c room hc) (readBlock?_rewritten body room hb)

/-- So is every arm of a conditional. -/
theorem readBranch?_rewrittenAll :
    ∀ (bs : List Branch) (room : Nat), (∀ v ∈ Branch.toJsonAll bs, v.nesting ≤ room) →
      ReadsBackAll extra (readBranch? room) (Branch.toJsonAll bs)
        (Branch.mapExprsOfAll (Expr.mapNumbers Double.reread) bs)
  | [], _, _ => by
    rw [Branch.toJsonAll, Branch.mapExprsOfAll]
    exact readsBackAll_nil
  | b :: bs, room, h => by
    rw [Branch.toJsonAll] at h ⊢
    obtain ⟨hb, hbs⟩ := List.forall_mem_cons.1 h
    rw [Branch.mapExprsOfAll]
    exact (readBranch?_rewritten b room hb).cons (readBranch?_rewrittenAll bs room hbs)

end

/-- The statements of a block are read back as they are written. -/
theorem readStmt?_toJsonAll (ss : List Stmt) (atRoot : Bool) (room : Nat)
    (h : ∀ v ∈ Stmt.toJsonAll ss, v.nesting ≤ room) :
    (Stmt.toJsonAll ss).mapM (readStmt? atRoot room) = some (rereadBlock ss) :=
  readStmt?_rewrittenAll ss atRoot room h true _ (@Json.RewrittenItems.refl Json.Harmless _)

end Quill
