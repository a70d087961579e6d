import NamedSql.Backend.Script
import NamedSql.Proofs.Variation.Run

/-!
# What messages and logs tell

Bytes are never shown: runs that differ only in the bytes of parameters cannot be told apart by their messages,
events and bindings (`bytes_never_shown`). Where the settings hide parameters, other values are shown in a single
place, by the failure of a LIKE parameter that is no text (`values_shown_by_patterns_only`).
-/

namespace NamedSql

open NamedSql.Flow

variable {σ τ α : Type} {r : σ → τ → Prop} {b : Backend σ} {c : Backend τ} {V : Variation}

/-! ### Variations -/

/-- Values differ in their bytes only. -/
def Variation.bytes : Variation where
  value v w := v = w ∨ ∃ payload payload', v = .blob payload ∧ w = .blob payload'
  refl _ := .inl rfl
  kind := by
    rintro v w (rfl | ⟨_, _, rfl, rfl⟩)
    · rfl
    · rfl
  text := by
    rintro s t (⟨⟨⟩⟩ | ⟨_, _, ⟨⟩, _⟩) f
    exact .inl rfl

/-- Values differ in anything but their kind. -/
def Variation.kinds : Variation where
  value v w := v.kind? = w.kind?
  refl _ := rfl
  kind h := h
  text _ _ := rfl

theorem Variation.masked_bytes : Variation.bytes.Masked := by
  rintro v w (rfl | ⟨_, _, rfl, rfl⟩)
  · rfl
  · rfl

/-! ### Scripted databases -/

namespace Script

/-- Scripts that answer in the same way: the values that were bound do not matter, nor what was recorded. -/
structure Akin (s t : Script) : Prop where
  cues : s.cues = t.cues
  prepareFault : s.prepareFault = t.prepareFault
  prepareDelay : s.prepareDelay = t.prepareDelay
  bindFault : s.bindFault = t.bindFault
  closeFault : s.closeFault = t.closeFault
  defaultTimeout : s.defaultTimeout = t.defaultTimeout
  statements : Keyed (fun p q => p.clear = q.clear) s.statements t.statements

theorem Akin.refl (s : Script) : Akin s s :=
  ⟨rfl, rfl, rfl, rfl, rfl, rfl, List.forall₂_same.2 fun _ _ => ⟨rfl, rfl⟩⟩

theorem akin_modifyStatement (handle : Nat) {f g : Prepared String → Prepared String}
    (hfg : ∀ p q, p.clear = q.clear → (f p).clear = (g q).clear) {s t : Script} (h : Akin s t) :
    Akin (modifyStatement handle f s) (modifyStatement handle g t) := by
  refine { h with statements := ?_ }
  have hmap {x y : Shelf String} (hxy : Keyed (fun p q => p.clear = q.clear) x y) :
      Keyed (fun p q => p.clear = q.clear) (x.update handle f) (y.update handle g) := by
    induction hxy with
    | nil => exact .nil
    | @cons e e' _ _ hef _ ih =>
      refine .cons ?_ ih
      dsimp only
      rw [hef.1]
      split_ifs
      · exact ⟨rfl, hfg e.2 e'.2 hef.2⟩
      · exact hef
  exact hmap h.statements

theorem akin_prepare (handle : Nat) (sql : String) :
    Flow.Alike (World.Alike Akin) (prepare handle sql) (prepare handle sql) := by
  refine Flow.Alike.readThen fun w v hw => ?_
  have hlink : Akin w.link v.link := hw.link
  dsimp only [id]
  rw [hlink.prepareFault, hlink.prepareDelay]
  cases v.link.prepareFault with
  | some fault => exact (Call.alike_modifyLink fun _ _ h => { h with prepareFault := rfl }).bind fun _ => .fail _
  | none =>
    refine Flow.Alike.bind (Call.alike_modifyLink fun s t h => ?_) fun _ => Call.alike_pass _
    refine { h with statements := .cons ⟨rfl, ?_⟩ (h.statements.filter (· != handle)) }
    rw [h.defaultTimeout]

theorem akin_bind (handle position : Nat) (x y : Value) :
    Flow.Alike (World.Alike Akin) (bind handle position x) (bind handle position y) := by
  have hput : Flow.Alike (World.Alike Akin) (Call.modifyLink (modifyStatement handle (·.bind position x)))
      (Call.modifyLink (modifyStatement handle (·.bind position y))) := by
    refine Call.alike_modifyLink fun _ _ h => akin_modifyStatement handle ?_ h
    exact fun _ _ hpq => hpq
  refine (Flow.Alike.require _ _).bind fun _ => ?_
  refine (Flow.Alike.read fun _ _ hw => hw.link.bindFault).bind fun fault => ?_
  rcases fault with _ | ⟨n, fault⟩
  · exact hput
  · exact (Flow.Alike.require _ _).bind fun _ => hput

theorem akin_takeAnswer : Flow.Alike (World.Alike Akin) takeAnswer takeAnswer := by
  refine (Flow.Alike.read fun _ _ hw => hw.link.cues).bind fun cues => ?_
  rcases cues with _ | ⟨cue, cues⟩
  · exact .pure _
  · exact (Call.alike_modifyLink fun _ _ h => { h with cues := rfl }).bind fun _ =>
      (Call.alike_pass _).bind fun _ => .pure _

theorem statement_of_some {handle : Nat} {p : Prepared String} {w : World Script}
    (h : w.link.statements.lookup handle = some p) : statement handle w = (.done p, w) := by
  simp only [statement, Bind.bind, Flow.bind, Call.readLink, Flow.read, Shelf.get?, h]
  rfl

theorem statement_of_none {handle : Nat} {w : World Script} (h : w.link.statements.lookup handle = none) :
    statement handle w = (.failed unknownHandle, w) := by
  simp only [statement, Bind.bind, Flow.bind, Call.readLink, Flow.read, Shelf.get?, h]
  rfl

/-- What follows on a statement that is looked up. -/
theorem akin_statementThen (handle : Nat) {k k' : Prepared String → Call Script α}
    (hk : ∀ p q, p.clear = q.clear → Flow.Alike (World.Alike Akin) (k p) (k' q)) :
    Flow.Alike (World.Alike Akin) (statement handle >>= k) (statement handle >>= k') := by
  intro w v hw
  have hfound := hw.link.statements.lookup handle
  generalize hp : w.link.statements.lookup handle = x, hq : v.link.statements.lookup handle = y at hfound
  cases hfound with
  | some hpq =>
    rw [bind_done (statement_of_some hp), bind_done (statement_of_some hq)]
    exact hk _ _ hpq hw
  | none =>
    rw [bind_failed (statement_of_none hp), bind_failed (statement_of_none hq)]
    exact ⟨rfl, hw⟩

/-- A batch is answered by the number of its entries. -/
theorem akin_executeBatch (handle : Nat) {xs ys : List (List Value)} (hlength : xs.length = ys.length) :
    Flow.Alike (World.Alike Akin) (executeBatch handle xs) (executeBatch handle ys) := by
  refine akin_statementThen handle fun p q _ => ?_
  refine (Call.alike_modifyLink fun _ _ h => { h with }).bind fun _ => akin_takeAnswer.bind fun answer => ?_
  have hcounts : (xs.map fun _ => (1 : UInt64)) = ys.map fun _ => 1 := by
    rw [List.map_const', List.map_const', hlength]
  cases answer with
  | fault fault => exact .fail _
  | rows columns rows ending =>
    dsimp only
    rw [hcounts]
    exact .pure _
  | count n =>
    dsimp only
    rw [hcounts]
    exact .pure _

theorem blind_streaming : streaming.Blind V Akin streaming where
  prepare := akin_prepare
  bind handle position v := akin_bind handle position v v
  clearBindings handle _ _ h := by
    refine akin_modifyStatement handle ?_ h
    exact fun _ _ hpq => hpq
  execute handle := by
    refine akin_statementThen handle fun p q hpq => ?_
    refine (Call.alike_modifyLink fun _ _ h => { h with }).bind fun _ => akin_takeAnswer.bind fun answer => ?_
    have hlimit : p.maxRows = q.maxRows := (congrArg Prepared.maxRows hpq :)
    cases answer with
    | rows columns rows ending =>
      dsimp only
      rw [hlimit]
      exact .pure _
    | count n => exact .pure _
    | fault fault => exact .fail _
  executeBatch handle _ := akin_executeBatch handle rfl
  limitRows handle n _ _ := akin_modifyStatement handle fun p q hpq =>
    congrArg (fun p : Prepared String => { p with maxRows := n }) hpq
  timeout handle s t h := by
    show (s.statements.lookup handle).bind _ = (t.statements.lookup handle).bind _
    have hfound := h.statements.lookup handle
    generalize s.statements.lookup handle = x, t.statements.lookup handle = y at hfound ⊢
    cases hfound with
    | some hpq => exact (congrArg Prepared.timeout hpq :)
    | none => rfl
  limitTime handle n _ _ := akin_modifyStatement handle fun p q hpq =>
    congrArg (fun p : Prepared String => { p with timeout := n }) hpq
  fetch handle := by
    refine Flow.Alike.readThen fun w v hw => ?_
    have hkeys (shelf : Shelf String) : shelf.has handle = (shelf.map Prod.fst).any (· == handle) := by
      rw [List.any_map]
      rfl
    rw [hkeys, hkeys, hw.link.statements.keys]
    exact .require _ _
  close handle := by
    refine (Flow.Alike.read fun _ _ hw => hw.link.closeFault).bind fun fault => ?_
    cases fault with
    | some fault => exact .fail _
    | none =>
      exact Call.alike_modifyLink fun _ _ h => { h with statements := h.statements.filter (· != handle) }
  bindVaried handle position _ _ _ := akin_bind handle position _ _
  executeBatchVaried handle _ _ hxs := akin_executeBatch handle hxs.length_eq

end Script

/-! ### Runs -/

/-- The text of the parameters that a failure carries. -/
def Failure.parameters? : Failure → Option String
  | .duplicateKey fault | .access fault => fault.parameters
  | .timeout fault => fault.parameters
  | _ => none

theorem Failure.Varies.parameters? {e f : Failure} (h : e.Varies V f) : e.parameters? = f.parameters? := by
  cases h with
  | refl => rfl
  | binding h => rfl

theorem Failure.Varies.eq_or_notText {e f : Failure} (h : e.Varies V f) :
    e = f ∨ ∃ name v w, e = .binding (.notText name v) ∧ f = .binding (.notText name w) := by
  cases h with
  | refl => exact .inl rfl
  | binding h =>
    cases h with
    | refl => exact .inl rfl
    | @notText name v w _ => exact .inr ⟨name, v, w, rfl, rfl⟩

/-- New workbenches on lines that are alike. -/
theorem Workbench.varies_start {l : Line σ} {l' : Line τ} (hl : l.Alike r l')
    (hV : l.session.settings.logParameters = true → V.Masked) :
    (Workbench.start l []).Varies V r (Workbench.start l' []) :=
  ⟨⟨hl, hV⟩, rfl, rfl, .nil, rfl, congrArg (fun s : Session => Catalog.empty s.settings.escape) hl.session⟩

namespace Step

/-- The reports of a run on a new workbench without memos, and all events when it is given up in the end. -/
def account (b : Backend σ) (l : Line σ) (steps : List (Step σ)) : List Report × List Event :=
  let t := runAll b (.start l []) steps
  (reports t, (Workbench.drop b (lastOf (.start l []) t)).2.line.log)

theorem account_varies (h : b.Blind V r c) {l : Line σ} {l' : Line τ} (hl : l.Alike r l')
    (hV : l.session.settings.logParameters = true → V.Masked) {steps : List (Step σ)} {steps' : List (Step τ)}
    (hsteps : VariesAll V r steps steps') :
    List.Forall₂ (Report.Varies V) (account b l steps).1 (account c l' steps').1 ∧
      (account b l steps).2 = (account c l' steps').2 := by
  obtain ⟨hreports, hlast⟩ := runAll_varies h (Workbench.varies_start hl hV) hsteps
  exact ⟨hreports, (Workbench.varies_drop h hlast).2.line.log⟩

/-- Reports that read the same: the messages and the parameters in failures, the events and the bindings. -/
structure Report.Same (x y : Report) : Prop where
  messages : x.failures.map Failure.message = y.failures.map Failure.message
  parameters : x.failures.map Failure.parameters? = y.failures.map Failure.parameters?
  log : x.log = y.log
  bindings : x.bindings = y.bindings

theorem Report.Varies.same (hV : V.Masked) {x y : Report} (h : x.Varies V y) : x.Same y := by
  have hmap {β : Type} {f : Failure → β} (hf : ∀ e e', Failure.Varies V e e' → f e = f e') :
      x.failures.map f = y.failures.map f :=
    List.forall₂_eq_eq_eq ▸ List.rel_map hf h.failures
  exact ⟨hmap fun _ _ he => he.message hV, hmap fun _ _ he => he.parameters?, h.log, h.bindings hV⟩

/-- Whatever the settings are, nothing that can be read depends on the bytes in parameters, be it those of values,
alone or in sequences, or those of streams. The database may get them, as long as it answers in the same way. -/
theorem bytes_never_shown (h : b.Blind .bytes r c) {l : Line σ} {l' : Line τ} (hl : l.Alike r l')
    {steps : List (Step σ)} {steps' : List (Step τ)} (hsteps : VariesAll .bytes r steps steps') :
    List.Forall₂ Report.Same (account b l steps).1 (account c l' steps').1 ∧
      (account b l steps).2 = (account c l' steps').2 := by
  obtain ⟨hreports, hlog⟩ := account_varies h hl (fun _ => Variation.masked_bytes) hsteps
  exact ⟨hreports.imp fun _ _ hxy => hxy.same Variation.masked_bytes, hlog⟩

/-- A session on a scripted database with the given answers. -/
def scriptedLine (answers : List Answer) (logParameters : Bool) : Line Script :=
  ⟨.start "main" { Settings.default with logParameters },
    ⟨{ Script.empty with cues := answers.map (⟨0, ·⟩) }, .epoch⟩, []⟩

theorem scriptedLine_akin (answers : List Answer) (logParameters : Bool) :
    (scriptedLine answers logParameters).Alike Script.Akin (scriptedLine answers logParameters) :=
  ⟨rfl, ⟨.refl _, rfl⟩, rfl⟩

def bare : Equipment :=
  ⟨none, none, []⟩

theorem bare_varies : bare.Varies V bare :=
  ⟨rfl, rfl, .nil⟩

/-- What was said by failures. -/
def messages (reports : List Report) : List String :=
  reports.flatMap fun x => x.failures.map Failure.message

/-- A byte in a value, in a stream and in a sequence: in an update that fails, in a batch, and as a pattern. -/
def byteSteps (n : UInt8) : List (Step Script) :=
  [.addStatement "q" "INSERT INTO t VALUES (:a, :s, :l[])" none bare,
    .use "q" (.bind (.name "a") (.value (.blob [n]))),
    .use "q" (.bind (.name "s") (.stream [n, n])),
    .use "q" (.bind (.name "l") (.sequence [.blob [n], .null])),
    .use "q" .update,
    .transaction none [.use "q" .addBatch, .use "q" .executeBatch],
    .addStatement "p" "SELECT a FROM t WHERE n LIKE :%s" none bare,
    .use "p" (.bind (.name "s") (.stream [n])),
    .use "p" .retrieve]

theorem bytes_never_shown_of_failures :
    messages (account Script.streaming (scriptedLine [.fault ⟨none, 1, "boom"⟩] true) (byteSteps 1)).1 =
      ["Database access error: [1] boom (sql: INSERT INTO t VALUES (?, ?, ?, ?); " ++
          "params: \x7ba=<binary>, l=[<binary>, NULL], s=<stream>\x7d)",
        "Parameter binding error: like parameter :s requires text, got <binary>"] ∧
    List.Forall₂ Report.Same
      (account Script.streaming (scriptedLine [.fault ⟨none, 1, "boom"⟩] true) (byteSteps 1)).1
      (account Script.streaming (scriptedLine [.fault ⟨none, 1, "boom"⟩] true) (byteSteps 2)).1 := by
  have hblob (payload payload' : List UInt8) : Variation.bytes.value (.blob payload) (.blob payload') :=
    .inr ⟨payload, payload', rfl, rfl⟩
  have hsteps : VariesAll .bytes Script.Akin (byteSteps 1) (byteSteps 2) :=
    .cons (.addStatement _ _ _ bare_varies) <|
    .cons (.use _ (.bind _ (.value (hblob _ _)))) <|
    .cons (.use _ (.bind _ (.stream (hblob _ _)))) <|
    .cons (.use _ (.bind _ (.sequence (.cons (hblob _ _) (.cons (.inl rfl) .nil))))) <|
    .cons (.use _ (.refl _)) <|
    .cons (.transaction _ (.cons (.use _ (.refl _)) (.cons (.use _ (.refl _)) .nil))) <|
    .cons (.addStatement _ _ _ bare_varies) <|
    .cons (.use _ (.bind _ (.stream (hblob _ _)))) <|
    .cons (.use _ (.refl _)) .nil
  exact ⟨by decide +kernel, (bytes_never_shown Script.blind_streaming (scriptedLine_akin _ _) hsteps).1⟩

/-- The same failures, but for those of LIKE parameters that are no text, and the same events. -/
structure Report.SameButPatterns (x y : Report) : Prop where
  failures : List.Forall₂ (fun e f => e = f ∨
    ∃ name v w, e = .binding (.notText name v) ∧ f = .binding (.notText name w)) x.failures y.failures
  log : x.log = y.log

/-- If the settings hide parameters, what values of the same kinds are bound is seen nowhere but in the failures of
LIKE parameters that are no text. -/
theorem values_shown_by_patterns_only (h : b.Blind .kinds r c) {l : Line σ} {l' : Line τ} (hl : l.Alike r l')
    (hhidden : l.session.settings.logParameters = false) {steps : List (Step σ)} {steps' : List (Step τ)}
    (hsteps : VariesAll .kinds r steps steps') :
    List.Forall₂ Report.SameButPatterns (account b l steps).1 (account c l' steps').1 ∧
      (account b l steps).2 = (account c l' steps').2 := by
  have hV : l.session.settings.logParameters = true → Variation.kinds.Masked := by
    rw [hhidden]
    nofun
  obtain ⟨hreports, hlog⟩ := account_varies h hl hV hsteps
  exact ⟨hreports.imp fun _ _ hxy => ⟨hxy.failures.imp fun _ _ => Failure.Varies.eq_or_notText, hxy.log⟩, hlog⟩

/-- Values in an update that fails, and one of them as a pattern. -/
def valueSteps (n : Int64) (text : String) : List (Step Script) :=
  [.addStatement "q" "INSERT INTO t VALUES (:n, :s)" none bare,
    .use "q" (.bind (.name "n") (.value (.integer n))),
    .use "q" (.bind (.name "s") (.value (.text text))),
    .use "q" .update,
    .addStatement "p" "SELECT a FROM t WHERE n LIKE :%s% AND m LIKE :%n%" none bare,
    .use "p" (.bindAll ⟨[(.name "n", .value (.integer n)), (.name "s", .value (.text text))]⟩),
    .use "p" .retrieve]

theorem values_shown_by_patterns_only_of_failures :
    messages (account Script.streaming (scriptedLine [.fault ⟨none, 1, "boom"⟩] false) (valueSteps 5 "a")).1 =
      ["Database access error: [1] boom (sql: INSERT INTO t VALUES (?, ?))",
        "Parameter binding error: like parameter :n requires text, got 5"] ∧
    List.Forall₂ Report.SameButPatterns
      (account Script.streaming (scriptedLine [.fault ⟨none, 1, "boom"⟩] false) (valueSteps 5 "a")).1
      (account Script.streaming (scriptedLine [.fault ⟨none, 1, "boom"⟩] false) (valueSteps 6 "bc")).1 := by
  have hsteps : VariesAll .kinds Script.Akin (valueSteps 5 "a") (valueSteps 6 "bc") :=
    .cons (.addStatement _ _ _ bare_varies) <|
    .cons (.use _ (.bind _ (.value rfl))) <|
    .cons (.use _ (.bind _ (.value rfl))) <|
    .cons (.use _ (.refl _)) <|
    .cons (.addStatement _ _ _ bare_varies) <|
    .cons (.use _ (.bindAll (.cons ⟨rfl, .value rfl⟩ (.cons ⟨rfl, .value rfl⟩ .nil)))) <|
    .cons (.use _ (.refl _)) .nil
  exact ⟨by decide +kernel,
    (values_shown_by_patterns_only Script.blind_streaming (scriptedLine_akin _ _) rfl hsteps).1⟩

def patternSteps (n : Int64) : List (Step Script) :=
  [.addStatement "q" "SELECT a FROM t WHERE n LIKE :%n%" none bare,
    .use "q" (.bind (.name "n") (.value (.integer n))),
    .use "q" .retrieve]

/-- The number that was bound is in the message, though the settings hide parameters. -/
theorem pattern_value_shown :
    (scriptedLine [] false).session.settings.logParameters = false ∧
    VariesAll .kinds Script.Akin (patternSteps 5) (patternSteps 6) ∧
    messages (account Script.streaming (scriptedLine [] false) (patternSteps 5)).1 =
      ["Parameter binding error: like parameter :n requires text, got 5"] ∧
    messages (account Script.streaming (scriptedLine [] false) (patternSteps 6)).1 =
      ["Parameter binding error: like parameter :n requires text, got 6"] := by
  have hsteps : VariesAll .kinds Script.Akin (patternSteps 5) (patternSteps 6) :=
    .cons (.addStatement _ _ _ bare_varies) <|
    .cons (.use _ (.bind _ (.value rfl))) <|
    .cons (.use _ (.refl _)) .nil
  exact ⟨rfl, hsteps, by decide +kernel, by decide +kernel⟩

end Step

end NamedSql
