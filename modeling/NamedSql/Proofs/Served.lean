import NamedSql.Proofs.Executed
import NamedSql.Proofs.Placeholders
import NamedSql.Proofs.Rewriting

/-!
# Values and their placeholders

Whatever a statement executes, the SQL that the database holds for the call has a placeholder outside
literals for each value that is bound to it, in the order of the markers (`placeholders_served`). The
counts of SQL Server are the exception: there the placeholders of a trailing ORDER BY are dropped but their
values are bound (`count_mssql_unserved`).
-/

namespace NamedSql

open NamedSql.Flow Template

variable {σ : Type} {b : Backend σ}

namespace Template

/-- Slots for the markers of a text, with the values that they take from the bindings. -/
def SlotsOf (escape : Char) (text : String) (b : Bindings) (us : List Slot) : Prop :=
  ∃ v ms, Decomposes text.toList v ms ∧ List.Forall₂ (fun m u => m.1.Reads u.marker ∧ m.2 = u.after) ms us ∧
    ∀ i u, us[i]? = some u → Takes escape b (1 + i) u.marker u.values

theorem Slot.places_add (escape : Char) (n k : Nat) (us : List Slot) :
    places escape (n + k) us = (places escape n us).map (· + k) := by
  induction us generalizing n with
  | nil => rfl
  | cons u us ih =>
    have hnext : n + k + (u.sql escape).length = n + (u.sql escape).length + k := Nat.add_right_comm _ _ _
    have hown : (List.range u.values.length).map (n + k + 3 * ·) =
        ((List.range u.values.length).map (n + 3 * ·)).map (· + k) := by
      rw [List.map_map]
      exact List.map_congr_left fun i _ => Nat.add_right_comm n k (3 * i)
    rw [places, places, hnext, ih, hown, List.map_append]

end Template

/-- Settings that can be used do not escape with a quote. -/
theorem Settings.escape_ne_quote {settings valid : Settings} (h : settings.validate = .ok valid) :
    settings.escape ≠ '\'' := by
  intro hquote
  unfold validate at h
  rw [hquote] at h
  cases h

namespace Statement

/-- The placeholders of the SQL are those of the slots of the text, for some bindings, and the values of
the slots are bound to it, so that each placeholder has a value. -/
def Served (v : Vendor) (escape : Char) (text sql : String) (values : List Value) : Prop :=
  ∃ bindings us n, SlotsOf escape text bindings us ∧ questions false 0 sql.toList = Slot.places escape n us ∧
    boundValues v (us.flatMap Slot.values) = .ok values ∧
    (questions false 0 sql.toList).length = values.length

/-- The SQL counts what another one gives, which has all placeholders; those in its trailing ORDER BY are
missing. -/
def ServedInPart (escape : Char) (text sql : String) (values : List Value) : Prop :=
  ∃ whole, sql = Vendor.countSql .mssql whole ∧ Served .mssql escape text whole values ∧
    (questions false 0 sql.toList).length + (orderByQuestions whole).length = values.length

section
variable {v : Vendor} {escape : Char} {text : String} {t : Template} {filled : Filled} {values : List Value}
  {sql : String}

theorem served_of_fills (hescape : escape ≠ '\'') (htext : questions false 0 text.toList = [])
    (ht : parse escape text = .ok t) (hfilled : Fills t filled)
    (hvalues : boundValues v filled.values = .ok values) (hsql : Moved filled.sql.toList sql.toList) :
    Served v escape text sql values := by
  obtain ⟨bindings, hfill⟩ := hfilled
  obtain ⟨plain, ms, us, hplain, hus, htakes, hfilledSql, hfilledValues⟩ := exists_slots_of_fill ht hfill
  obtain ⟨k, hk⟩ := hsql
  have hplaces : questions false 0 sql.toList = Slot.places escape (plain.length + k) us := by
    rw [hk, Slot.places_add, hfilledSql, String.toList_ofList,
      questions_slots hescape hplain (hus.imp fun _ _ h => h.2) htext, Nat.zero_add]
  have hlength : filled.values.length = values.length := (mapM_eq_ok.1 hvalues).length_eq
  refine ⟨bindings, us, plain.length + k, ⟨plain, ms, hplain, hus, htakes⟩, hplaces,
    hfilledValues ▸ hvalues, ?_⟩
  rw [hplaces, Slot.length_places, ← hfilledValues, hlength]

theorem moved_of_executable (h : Executable v filled.sql sql) : Moved filled.sql.toList sql.toList := by
  obtain rfl | ⟨page, rfl⟩ := h
  · exact .refl _
  · exact v.moved_pageSql filled.sql page

theorem servedInPart_of_fills (hescape : escape ≠ '\'') (htext : questions false 0 text.toList = [])
    (ht : parse escape text = .ok t) (hfilled : Fills t filled)
    (hvalues : boundValues .mssql filled.values = .ok values) :
    ServedInPart escape text (Vendor.countSql .mssql filled.sql) values := by
  have hwhole : Served .mssql escape text filled.sql values :=
    served_of_fills hescape htext ht hfilled hvalues (.refl _)
  have hlength : (questions false 0 filled.sql.toList).length = values.length := by
    obtain ⟨_, _, _, -, -, -, hlength⟩ := hwhole
    exact hlength
  exact ⟨filled.sql, rfl, hwhole, (Vendor.length_countSql filled.sql).trans hlength⟩

end

/-! ### Histories -/

/-- Others leave the template, the batch and the handle of the statement, and the vendor. They take further
handles and prepare nothing under those that are taken. -/
structure Apart (d d' : Desk (Watched σ)) : Prop where
  template : d'.statement.template = d.statement.template
  batch : d'.statement.batch = d.statement.batch
  handle : d'.statement.handle = d.statement.handle
  vendor : d'.line.session.vendor = d.line.session.vendor
  nextHandle : d.line.session.nextHandle ≤ d'.line.session.nextHandle
  calls : Since (fun calls => ∀ x ∈ calls, ∀ handle sql, x.request = .prepare handle sql →
    d.line.session.nextHandle ≤ handle) d.line.world.link.seen d'.line.world

section
variable {t : Template} {v : Vendor} {P : String → List Value → Prop} {start : List Watch}
  {d d' : Desk (Watched σ)}

theorem Serves.apart (hd : Serves t v P start d) (h : Apart d d') :
    Serves t v P d'.line.world.link.seen d' := by
  obtain ⟨before, hbefore, hheld⟩ := hd.line.world
  obtain ⟨calls, hseen, hcalls⟩ := h.calls
  have htaken : ∀ x ∈ d'.statement.handle, x.1 < d.line.session.nextHandle := fun x hx =>
    hd.line.session.2 x (h.handle ▸ hx)
  refine ⟨h.template.trans hd.template, h.batch ▸ hd.batch, h.batch ▸ hd.sameSql,
    ⟨h.vendor.trans hd.line.session.1, fun x hx => (htaken x hx).trans_le h.nextHandle⟩,
    Since.refl ⟨trivial, fun x hx => ?_⟩⟩
  have hothers : ∀ y ∈ calls, ∀ sql, y.request ≠ .prepare x.1 sql := fun y hy sql hprepare =>
    absurd (hcalls y hy x.1 sql hprepare) (htaken x hx).not_ge
  rw [List.append_nil, hseen, Slate.of_text hothers, hbefore]
  exact hheld.2 x (h.handle ▸ hx)

theorem serves_play {turns : List (Turn (Watched σ))}
    (hturns : ∀ change, .meanwhile change ∈ turns → ∀ d, Apart d (change d)) {last : Desk (Watched σ)}
    {played : List (Played (Watched σ))} (hd : Serves t v P start d)
    (h : play (Action.perform b.watched) turns d = (played, last)) :
    ∀ p ∈ played, Serves t v P p.found.line.world.link.seen p.found := by
  have hrun := play_keeps (I := fun d => Serves t v P d.line.world.link.seen d)
    (fun p _ hp _ hfound => ?_) (fun change hc d hd => hd.apart (hturns change hc d)) hd.restart h
  · exact fun p hp => (hrun.1 p hp).1
  · -- only that the invariant is kept matters here, so anything may be executed
    have hends := serves_perform (b := b) (t := t) (v := v) (P := fun _ _ => True) p.action
      (fun _ _ _ _ _ _ _ => trivial) (fun _ _ _ _ _ => trivial) p.found hfound.restart
    have hleft := hends.left
    rw [hp.left_eq] at hleft
    exact hleft.restart

theorem allFit_of_honest {p : Played (Watched σ)} (hp : p.Honest (Action.perform b.watched))
    (hfound : Serves t v P p.found.line.world.link.seen p.found)
    (hP : p.action ≠ .count → ∀ filled values sql, Fills t filled → boundValues v filled.values = .ok values →
      Executable v filled.sql sql → P sql values)
    (hcount : p.action = .count → ∀ filled values, Fills t filled → boundValues v filled.values = .ok values →
      P (v.countSql filled.sql) values) :
    Since (AllFit P p.found.line.world.link.seen) p.found.line.world.link.seen p.left.line.world := by
  have hends := serves_perform (b := b) p.action hP hcount p.found hfound
  have hleft := hends.left
  rw [hp.left_eq] at hleft
  exact hleft.line.world.mono fun _ hkept => hkept.1

end

/-- A statement is created from a text without question marks outside literals, with settings that can be
used, and the database is watched, which changes nothing. Whatever is done with the statement, and whatever
others do in between, each execution has the SQL that was prepared for it and exactly the values of the
text's markers, each for its placeholder and in their order. The counts of SQL Server have them without the
placeholders of a trailing ORDER BY. -/
theorem placeholders_served (b : Backend σ) {settings valid : Settings} (hvalid : settings.validate = .ok valid)
    {text : String} (htext : questions false 0 text.toList = []) {t : Template}
    (ht : settings.parse text = .ok t) {page : Option Page} {l l' : Line (Watched σ)} {st : Statement}
    (hcreate : create b.watched t page l = (.done st, l')) {turns : List (Turn (Watched σ))}
    (hturns : ∀ change, .meanwhile change ∈ turns → ∀ d, Apart d (change d)) {memos : List Memo}
    {last : Desk (Watched σ)} {played : List (Played (Watched σ))}
    (h : play (Action.perform b.watched) turns ⟨st, memos, l'⟩ = (played, last)) :
    ∀ p ∈ played, p.action.perform b p.found.unwatched = (p.outcome, p.left.unwatched) ∧
      (¬ (p.action = .count ∧ l.session.vendor = .mssql) →
        Since (AllFit (Served l.session.vendor settings.escape text) p.found.line.world.link.seen)
          p.found.line.world.link.seen p.left.line.world) ∧
      (p.action = .count ∧ l.session.vendor = .mssql →
        Since (AllFit (ServedInPart settings.escape text) p.found.line.world.link.seen)
          p.found.line.world.link.seen p.left.line.world) := by
  have hescape : settings.escape ≠ '\'' := Settings.escape_ne_quote hvalid
  intro p hp
  have hhonest : p.Honest (Action.perform b.watched) := (honest_of_play h p hp).1
  have hcreated := serves_create (b := b) (t := t) (P := fun _ _ => True) (l := l) page memos
  unfold ends at hcreated
  rw [hcreate] at hcreated
  have hfound := serves_play hturns hcreated h p hp
  refine ⟨perform_unwatched p.action hhonest, fun hnot => ?_, fun ⟨haction, hmssql⟩ => ?_⟩
  · refine allFit_of_honest hhonest hfound.restart (fun _ filled values sql hfilled hvalues hsql => ?_)
      fun haction filled values hfilled hvalues => ?_
    · exact served_of_fills hescape htext ht hfilled hvalues (moved_of_executable hsql)
    · have hvendor : l.session.vendor ≠ .mssql := fun hmssql => hnot ⟨haction, hmssql⟩
      exact served_of_fills hescape htext ht hfilled hvalues (Vendor.moved_countSql hvendor filled.sql)
  · rw [hmssql] at hfound
    refine allFit_of_honest hhonest hfound.restart (fun hne => absurd haction hne)
      fun _ filled values hfilled hvalues => ?_
    exact servedInPart_of_fills hescape htext ht hfilled hvalues

def listText : String :=
  "SELECT a FROM t WHERE k IN (:ks[])"

def listTemplate : Template :=
  ⟨listText, '\\', "SELECT a FROM t WHERE k IN (".toList.map .sql ++
    [.marker ⟨"ks", false, false, some .all⟩, .sql ')']⟩

def listTurns : List (Turn (Watched Script)) :=
  [.act (.bind (.name "ks") (.sequence [.integer 1, .integer 2])), .act .retrieve,
    .meanwhile fun d => { d with line := { d.line with world := { d.line.world with now := ⟨1000⟩ } } },
    .act .count]

theorem placeholders_served_of_list : ∃ st l' played last,
    Settings.default.parse listText = .ok listTemplate ∧
    create Script.buffered.watched listTemplate (some ⟨10, some 5⟩) (freshLine .default .empty) = (.done st, l') ∧
    play (Action.perform Script.buffered.watched) listTurns ⟨st, [], l'⟩ = (played, last) ∧
    last.line.world.link.seen.countP (·.request.executes) = 2 ∧
    ∀ p ∈ played, Since (AllFit (Served .sqlite '\\' listText) p.found.line.world.link.seen)
      p.found.line.world.link.seen p.left.line.world := by
  have hparse : Settings.default.parse listText = .ok listTemplate := by cbv
  obtain ⟨st, l', played, last, hcreate, hplay, hexecuted⟩ : ∃ st l' played last,
      create Script.buffered.watched listTemplate (some ⟨10, some 5⟩) (freshLine .default .empty) =
        (.done st, l') ∧
      play (Action.perform Script.buffered.watched) listTurns ⟨st, [], l'⟩ = (played, last) ∧
      last.line.world.link.seen.countP (·.request.executes) = 2 :=
    ⟨_, _, _, _, rfl, rfl, by decide +kernel⟩
  have hturns : ∀ change, .meanwhile change ∈ listTurns → ∀ d, Apart d (change d) := by
    intro change hchange d
    simp only [listTurns, List.mem_cons, reduceCtorEq, Turn.meanwhile.injEq, List.not_mem_nil, or_false,
      false_or] at hchange
    subst hchange
    exact ⟨rfl, rfl, rfl, rfl, le_rfl, [], (List.append_nil _).symm, List.forall_mem_nil _⟩
  refine ⟨st, l', played, last, hparse, hcreate, hplay, hexecuted, fun p hp => ?_⟩
  have hvalid : Settings.default.validate = .ok .default := rfl
  have htext : questions false 0 listText.toList = [] := by decide +kernel
  have hserved := placeholders_served Script.buffered hvalid htext hparse hcreate hturns hplay p hp
  exact hserved.2.1 fun h => absurd h.2 (by decide)

/-! ### Counts of SQL Server -/

def sortedText : String :=
  "SELECT a FROM t ORDER BY :x"

def sortedTemplate : Template :=
  ⟨sortedText, '\\', "SELECT a FROM t ORDER BY ".toList.map .sql ++ [.marker ⟨"x", false, false, none⟩]⟩

/-- The count drops the placeholder with the ORDER BY, but its value is bound. -/
theorem count_mssql_unserved : ∃ st l' r d r' d',
    { Settings.default with vendor := .mssql }.parse sortedText = .ok sortedTemplate ∧
    create Script.buffered.watched sortedTemplate none
      (freshLine { Settings.default with vendor := .mssql } .empty) = (.done st, l') ∧
    (Action.bind (.name "x") (.value (.integer 1))).perform Script.buffered.watched ⟨st, [], l'⟩ = (r, d) ∧
    Action.count.perform Script.buffered.watched d = (r', d') ∧
    ¬ Since (AllFit (Served .mssql '\\' sortedText) d.line.world.link.seen) d.line.world.link.seen d'.line.world := by
  have hparse : { Settings.default with vendor := .mssql }.parse sortedText = .ok sortedTemplate := by cbv
  -- the third call of the count is its execution
  obtain ⟨st, l', r, d, r', d', hcreate, hbind, hcount, hx, hslate⟩ : ∃ st l' r d r' d',
      create Script.buffered.watched sortedTemplate none
        (freshLine { Settings.default with vendor := .mssql } .empty) = (.done st, l') ∧
      (Action.bind (.name "x") (.value (.integer 1))).perform Script.buffered.watched ⟨st, [], l'⟩ = (r, d) ∧
      Action.count.perform Script.buffered.watched d = (r', d') ∧
      (d'.line.world.link.seen.drop d.line.world.link.seen.length)[2]? =
        some (.called (.execute 1) (.done ()) .epoch) ∧
      Slate.of 1 (d.line.world.link.seen ++
        (d'.line.world.link.seen.drop d.line.world.link.seen.length).take 2) =
        ⟨some "SELECT COUNT(*) AS cnt FROM (SELECT a FROM t ) AS sub", [(.integer 1, 1)]⟩ :=
    ⟨_, _, _, _, _, _, rfl, rfl, rfl, rfl, rfl⟩
  refine ⟨st, l', r, d, r', d', hparse, hcreate, hbind, hcount, ?_⟩
  rintro ⟨calls, hseen, hfit⟩
  rw [hseen, List.drop_left] at hx hslate
  obtain ⟨sql, values, hcarried, _, _, _, -, -, -, hlength⟩ := hfit.fits hx
  obtain ⟨rfl, hbound⟩ : sql = "SELECT COUNT(*) AS cnt FROM (SELECT a FROM t ) AS sub" ∧
      values.zipIdx 1 = [(.integer 1, 1)] := by
    rw [hslate] at hcarried
    exact ⟨(Option.some.inj (congrArg Slate.text hcarried)).symm, (congrArg Slate.bound hcarried).symm⟩
  have hone : values.length = 1 := by
    rw [← List.length_zipIdx (i := 1), hbound]
    rfl
  have hnone : questions false 0 "SELECT COUNT(*) AS cnt FROM (SELECT a FROM t ) AS sub".toList = [] := by
    decide +kernel
  rw [hnone, hone] at hlength
  cases hlength

end Statement

end NamedSql
