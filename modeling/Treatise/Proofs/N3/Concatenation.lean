import Mathlib.Data.List.Forall2
import Treatise.CommandLine.Run
import Treatise.Proofs.N3.Reader

/-!
# Fact files one after the other

A line feed between two texts ends whatever the first text left open at its
end: a comment, the tail of a literal, or a word.  A rule may leave out its
conclusion and its dot, and then the next text cannot supply them, because no
document begins with an arrow or a dot.  So the texts can be read one by one,
and loading several files is loading the one file that joins them.
-/

namespace Treatise.N3

/-! ## A line feed between two texts -/

theorem head?_append_newline {rest after : List Char} {P : Char → Prop}
    (hrest : ∀ c, rest.head? = some c → P c) (hline : P '\n') :
    ∀ c, (rest ++ '\n' :: after).head? = some c → P c := by
  intro c hhead
  cases rest with
  | nil =>
      obtain rfl : '\n' = c := Option.some.inj hhead
      exact hline
  | cons first others => exact hrest c hhead

/-- All that a piece asks of the text after it is asked of the next character,
and a line feed is as good as the end of the text. -/
theorem Piece.append_newline {front rest : List Char} {tokens : List Token} {newlines : ℕ}
    (hpiece : Piece front rest tokens newlines) (after : List Char) :
    Piece front (rest ++ '\n' :: after) tokens newlines := by
  cases hpiece with
  | newline => exact .newline _
  | blank hblank hline => exact .blank hblank hline _
  | comment hbody hrest => exact .comment hbody (head?_append_newline hrest rfl)
  | mark hmark => exact .mark hmark _
  | implies => exact .implies _
  | iri hclose hline => exact .iri hclose hline _
  | @short raw value suffix _ hbody hopen hsuffix hrest =>
      have hopen' : raw = [] → (suffix ++ (rest ++ '\n' :: after)).head? ≠ some '"' := by
        intro hempty hhead
        rw [← List.append_assoc] at hhead
        have hmark := head?_append_newline (P := (· ≠ '"'))
          (fun c hc hquote => hopen hempty (hquote ▸ hc)) (by decide) '"' hhead
        exact hmark rfl
      exact .short hbody hopen' hsuffix (head?_append_newline hrest (by decide))
  | long hbody hsuffix hrest =>
      exact .long hbody hsuffix (head?_append_newline hrest (by decide))
  | directive hrest => exact .directive (head?_append_newline hrest (by decide))
  | word hname dots hrest => exact .word hname dots (head?_append_newline hrest (by decide))

theorem Spells.append_newline {first second : List Char} {tokens others : List Token}
    (hfirst : Spells first tokens) (hsecond : Spells second others) :
    Spells (first ++ '\n' :: second) (tokens ++ others) := by
  induction hfirst with
  | nil =>
      have hline := Spells.cons (.newline second) hsecond
      simpa using hline
  | cons hpiece _ ih =>
      rw [List.append_assoc, List.append_assoc]
      exact .cons (hpiece.append_newline second) ih

theorem Phrases.append {label : String} {tokens others : List Token}
    {document after : Document} (hfirst : Phrases label tokens document)
    (hsecond : Phrases label others after) :
    Phrases label (tokens ++ others) (document ++ after) := by
  induction hfirst with
  | nil =>
      rw [Document.blank_append]
      exact hsecond
  | cons hphrase _ ih =>
      rw [List.append_assoc, Document.append_assoc]
      exact .cons hphrase ih

theorem ofText_append_newline {label first second : String} {before after : Document}
    (hfirst : Document.ofText label first = .ok before)
    (hsecond : Document.ofText label second = .ok after) :
    Document.ofText label (first ++ "\n" ++ second) = .ok (before ++ after) := by
  obtain ⟨tokens, hspells, hphrases⟩ := ofText_eq_ok_iff.mp hfirst
  obtain ⟨others, hothers, hmore⟩ := ofText_eq_ok_iff.mp hsecond
  have hwhole : Spells (first ++ "\n" ++ second).toList (tokens ++ others) := by
    simpa using hspells.append_newline hothers
  exact ofText_eq_ok_iff.mpr ⟨_, hwhole, hphrases.append hmore⟩

theorem ofText_empty (label : String) : Document.ofText label "" = .ok .blank :=
  ofText_eq_ok_iff.mpr ⟨[], .nil, .nil⟩

end Treatise.N3

namespace Treatise.CommandLine

open N3

/-! ## Files as they are loaded -/

theorem loadFactFile_of_read {host : Host} {path text : String} {document : Document}
    (hread : host.readFile path = .ok text)
    (hdocument : Document.ofText defaultLabel text = .ok document) :
    loadFactFile host path = .ok ⟨path, text, document⟩ := by
  simp [loadFactFile, readOrFail, parseOrFail, hread, hdocument, Bind.bind, Except.bind,
    Pure.pure, Except.pure]

theorem loadFactFiles_cons_of_load {host : Host} {path : String} {rest : List String}
    {file : FactFile} {files : List FactFile} (hfile : loadFactFile host path = .ok file)
    (hfiles : loadFactFiles host rest = .ok files) :
    loadFactFiles host (path :: rest) = .ok (file :: files) := by
  simp [loadFactFiles, hfile, hfiles, Bind.bind, Except.bind, Pure.pure, Except.pure]

/-- Files whose texts are accepted are loaded, and the joined text holds the
statements of all of them. -/
theorem exists_files_of_read {host : Host} {paths texts : List String}
    (hread : List.Forall₂ (fun path text => host.readFile path = .ok text) paths texts)
    (haccepted : ∀ text ∈ texts, ∃ document,
      Document.ofText defaultLabel text = .ok document) :
    ∃ files document, loadFactFiles host paths = .ok files ∧
      Document.ofText defaultLabel ("\n".intercalate texts) = .ok document ∧
      document.statements = files.flatMap (·.statements) := by
  induction hread with
  | nil => exact ⟨[], .blank, rfl, ofText_empty defaultLabel, rfl⟩
  | @cons path text paths texts hpath _ ih =>
      obtain ⟨first, hfirst⟩ := haccepted text List.mem_cons_self
      obtain ⟨files, others, hfiles, hjoined, hstatements⟩ :=
        ih fun other hmem => haccepted other (List.mem_cons_of_mem text hmem)
      have hload := loadFactFiles_cons_of_load (loadFactFile_of_read hpath hfirst) hfiles
      cases texts with
      | nil =>
          -- The last text stands without a line feed after it.
          obtain rfl : others = .blank := by
            rw [String.intercalate_nil, ofText_empty] at hjoined
            exact (Except.ok.inj hjoined).symm
          refine ⟨_, first, hload, ?_, ?_⟩
          · simpa using hfirst
          · rw [List.flatMap_cons, ← hstatements]
            simp [Document.blank, FactFile.statements]
      | cons next rest =>
          refine ⟨_, first ++ others, hload, ?_, ?_⟩
          · rw [String.intercalate_cons_cons]
            exact ofText_append_newline hfirst hjoined
          · rw [List.flatMap_cons, ← hstatements]
            rfl

/-- Texts that are documents may be read one by one or with line feeds between
them, and files may be loaded one by one or joined. -/
theorem concatenation_reads_alike :
    (∀ (label first second : String) (before after : Document),
      Document.ofText label first = .ok before → Document.ofText label second = .ok after →
        Document.ofText label (first ++ "\n" ++ second) =
          .ok ⟨before.bindings ++ after.bindings, before.statements ++ after.statements,
            before.ruleCount + after.ruleCount, before.skippedCount + after.skippedCount⟩) ∧
    ∀ (host : Host) (paths texts : List String),
      List.Forall₂ (fun path text => host.readFile path = .ok text) paths texts →
      (∀ text ∈ texts, ∃ document, Document.ofText defaultLabel text = .ok document) →
        ∃ files, loadFactFiles host paths = .ok files ∧
          ∀ (other : Host) (path : String),
            other.readFile path = .ok ("\n".intercalate texts) →
              ∃ file, loadFactFiles other [path] = .ok [file] ∧
                storeOf [file] = storeOf files := by
  constructor
  · intro label first second before after hfirst hsecond
    exact ofText_append_newline hfirst hsecond
  · intro host paths texts hread haccepted
    obtain ⟨files, document, hfiles, hjoined, hstatements⟩ :=
      exists_files_of_read hread haccepted
    refine ⟨files, hfiles, ?_⟩
    intro other path hother
    have hfile := loadFactFile_of_read hother hjoined
    refine ⟨_, loadFactFiles_cons_of_load hfile rfl, ?_⟩
    simp [storeOf, hstatements, FactFile.statements]

/-- A comment and a rule that the end of the text ends. -/
def openEnded : String :=
  "ethics:A ethics:cites ethics:B . \x7b ?x ethics:cites ?y \x7d # to be continued ."

def continued : String :=
  "@prefix dc: <#> . ethics:C dc:title \"\" ; a ethics:Note ."

def twoFiles : Host where
  readFile path :=
    .ok (match path with
      | "first" => openEnded
      | "second" => continued
      | _ => openEnded ++ "\n" ++ continued)
  launch _ := .overdue

/-- Neither the comment nor the rule runs on into the second text. -/
theorem concatenation_openEnded :
    Document.ofText defaultLabel (openEnded ++ "\n" ++ continued) =
      .ok ⟨[("dc", "#")],
        [⟨⟨"A"⟩, .cites, ⟨"B"⟩⟩, ⟨⟨"C"⟩, .instanceOf, ⟨"Note"⟩⟩], 1, 1⟩ ∧
    ∃ files file, loadFactFiles twoFiles ["first", "second"] = .ok files ∧
      loadFactFiles twoFiles ["joined"] = .ok [file] ∧ storeOf [file] = storeOf files := by
  obtain ⟨hjoined, hloaded⟩ := concatenation_reads_alike
  have hfirst : Document.ofText defaultLabel openEnded =
      .ok ⟨[], [⟨⟨"A"⟩, .cites, ⟨"B"⟩⟩], 1, 0⟩ := by
    decide +kernel
  have hsecond : Document.ofText defaultLabel continued =
      .ok ⟨[("dc", "#")],
        [⟨⟨"C"⟩, .instanceOf, ⟨"Note"⟩⟩], 0, 1⟩ := by
    decide +kernel
  have hread : List.Forall₂ (fun path text => twoFiles.readFile path = .ok text)
      ["first", "second"] [openEnded, continued] :=
    .cons rfl (.cons rfl .nil)
  have haccepted : ∀ text ∈ [openEnded, continued], ∃ document,
      Document.ofText defaultLabel text = .ok document := by
    intro text hmem
    simp only [List.mem_cons, List.not_mem_nil, or_false] at hmem
    rcases hmem with rfl | rfl
    · exact ⟨_, hfirst⟩
    · exact ⟨_, hsecond⟩
  obtain ⟨files, hfiles, hsame⟩ := hloaded twoFiles _ _ hread haccepted
  obtain ⟨file, hfile, hstore⟩ := hsame twoFiles "joined" rfl
  exact ⟨hjoined _ _ _ _ _ hfirst hsecond, files, file, hfiles, hfile, hstore⟩

end Treatise.CommandLine
