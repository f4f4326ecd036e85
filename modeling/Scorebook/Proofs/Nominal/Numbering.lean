import Mathlib.Data.List.Forall2
import Scorebook.Proofs.Nominal.Codebooks

/-!
# The numbering of nominal labels

A codebook is asked for codes one after another, by raw values or by plain labels. Whatever it is
asked, its maps stay inverse to each other, its labels are the declared ones in the order of the
scale and then the others in the order in which they were first asked for, each once, and the code
of a label is its position in this order. The coder of a nominal score gives the same answers.
-/

namespace Scorebook

/-- A request for a code: the code of a raw value or that of a plain label. -/
inductive CodeRequest where
  | raw (value : RawValue)
  | label (text : String)

namespace CodeRequest

/-- The label whose code is asked for. -/
def category : CodeRequest → String
  | raw value => value.category
  | label text => text

/-- Answers requests one after another, each in the state that the one before it left. -/
def answerAll {σ : Type} (answer : σ → CodeRequest → Option ℤ × σ) :
    σ → List CodeRequest → List (Option ℤ) × σ
  | state, [] => ([], state)
  | state, request :: rest =>
    let (code?, next) := answer state request
    let (later, last) := answerAll answer next rest
    (code? :: later, last)

end CodeRequest

namespace Coder

/-- Answers a request, and returns the coder as it is afterwards. -/
def answer (coder : Coder) : CodeRequest → Option ℤ × Coder
  | .raw value => coder.code value
  | .label text => coder.codeOfLabel text

/-- Answers requests one after another. -/
def answers : Coder → List CodeRequest → List (Option ℤ) × Coder := CodeRequest.answerAll answer

/-- The first of some requests is answered with the position that its label then has. -/
theorem answers_positional_cons (labels : List String) (request : CodeRequest)
    (rest : List CodeRequest) :
    (positional labels).answers (request :: rest) =
      (some ((assign labels request.category).1 : ℤ) ::
          ((positional (assign labels request.category).2).answers rest).1,
        ((positional (assign labels request.category).2).answers rest).2) := by
  cases request <;> rfl

end Coder

namespace Codebook

variable {book : Codebook}

/-- Answers a request, and returns the codebook as it is afterwards. -/
def answer (book : Codebook) : CodeRequest → Option ℤ × Codebook
  | .raw value => book.code value
  | .label text => book.codeOfLabel text

/-- Answers requests one after another. -/
def answers : Codebook → List CodeRequest → List (Option ℤ) × Codebook :=
  CodeRequest.answerAll answer

/-- The first of some requests is answered with the code that its label then has. -/
theorem answers_cons (book : Codebook) (request : CodeRequest) (rest : List CodeRequest) :
    book.answers (request :: rest) =
      (some (book.assign request.category).1 ::
          ((book.assign request.category).2.answers rest).1,
        ((book.assign request.category).2.answers rest).2) := by
  cases request <;> rfl

/-- Answering requests keeps a codebook consistent. -/
theorem Consistent.answers (h : book.Consistent) (requests : List CodeRequest) :
    (book.answers requests).2.Consistent := by
  induction requests generalizing book with
  | nil => exact h
  | cons request rest ih =>
    rw [answers_cons]
    exact ih (h.assign request.category)

/-- A code keeps its label while requests are answered. -/
theorem Consistent.labelOf?_answers (h : book.Consistent) {code : ℤ} {label : String}
    (hlabel : book.labelOf? code = some label) (requests : List CodeRequest) :
    (book.answers requests).2.labelOf? code = some label := by
  induction requests generalizing book with
  | nil => exact hlabel
  | cons request rest ih =>
    rw [answers_cons]
    exact ih (h.assign request.category) (h.labelOf?_assign_of_eq hlabel request.category)

/-- Each request is answered with the code that its label has in the codebook. -/
def AnswersWith (book : Codebook) (requests : List CodeRequest) (codes : List (Option ℤ)) : Prop :=
  List.Forall₂ (fun request code? =>
    ∃ code, code? = some code ∧ book.labelOf? code = some request.category) requests codes

/-- The code that answers a request is that of its label. -/
theorem AnswersWith.code_of_getElem? {requests : List CodeRequest} {codes : List (Option ℤ)}
    (h : book.AnswersWith requests codes) {index : ℕ} {request : CodeRequest}
    (hrequest : requests[index]? = some request) :
    ∃ code, codes[index]? = some (some code) ∧ book.labelOf? code = some request.category := by
  obtain ⟨hlt, rfl⟩ := List.getElem?_eq_some_iff.mp hrequest
  have hlt' : index < codes.length := h.length_eq ▸ hlt
  obtain ⟨code, hcode, hlabel⟩ := (List.forall₂_iff_get.mp h).2 index hlt hlt'
  exact ⟨code, by simpa [List.getElem?_eq_getElem hlt'] using hcode, hlabel⟩

/-- Two requests are answered with the same code exactly if they are for the same label. -/
theorem AnswersWith.getElem?_eq_iff {requests : List CodeRequest} {codes : List (Option ℤ)}
    (h : book.AnswersWith requests codes) (hconsistent : book.Consistent) {i j : ℕ}
    {first second : CodeRequest} (hfirst : requests[i]? = some first)
    (hsecond : requests[j]? = some second) :
    codes[i]? = codes[j]? ↔ first.category = second.category := by
  obtain ⟨code, hcode, hlabel⟩ := h.code_of_getElem? hfirst
  obtain ⟨code', hcode', hlabel'⟩ := h.code_of_getElem? hsecond
  rw [hcode, hcode', Option.some.injEq, Option.some.injEq]
  constructor
  · rintro rfl
    exact Option.some.inj (hlabel.symm.trans hlabel')
  · intro heq
    rw [heq] at hlabel
    exact hconsistent.labelOf?_inj hlabel hlabel'

/-- The codes that requests are answered with are those of their labels until the end. -/
theorem Consistent.answersWith (h : book.Consistent) (requests : List CodeRequest) :
    (book.answers requests).2.AnswersWith requests (book.answers requests).1 := by
  induction requests generalizing book with
  | nil => exact .nil
  | cons request rest ih =>
    have hnext := h.assign request.category
    have hcode := hnext.labelOf?_answers (h.labelOf?_assign request.category) rest
    rw [answers_cons]
    exact .cons ⟨_, rfl, hcode⟩ (ih hnext)

/-- Answering requests adds their new labels in the order of the requests. The coder that lists the
labels of a codebook answers with the same codes and goes on to list its labels. -/
theorem Lists.answers {seen : List String} (h : book.Lists seen.eraseDups)
    (hconsistent : book.Consistent) (requests : List CodeRequest) :
    let labels := (seen ++ requests.map (·.category)).eraseDups
    (book.answers requests).2.Lists labels ∧
      (Coder.positional seen.eraseDups).answers requests =
        ((book.answers requests).1, .positional labels) := by
  induction requests generalizing book seen with
  | nil => simpa [Codebook.answers, Coder.answers, CodeRequest.answerAll] using h
  | cons request rest ih =>
    obtain ⟨hcode, hlists⟩ := h.assign hconsistent request.category
    rw [Coder.labels_assign_eraseDups] at hlists
    obtain ⟨hlast, hcoder⟩ := ih hlists (hconsistent.assign request.category)
    rw [List.append_assoc, List.singleton_append, ← List.map_cons] at hlast hcoder
    rw [answers_cons, Coder.answers_positional_cons, Coder.labels_assign_eraseDups, hcoder, hcode]
    exact ⟨hlast, rfl⟩

/-- A codebook numbers the declared labels in the order of the scale, and behind them the others in
the order in which they were first observed. -/
structure NumbersInOrder (book : Codebook) (declared observed : List String) : Prop where
  /-- The known codes are one, two and so on, up to their number. -/
  codes : book.entries.map (·.1) = (List.range book.size).map fun index : ℕ => (index : ℤ) + 1
  /-- The labels in the order of their codes. -/
  labels : book.entries.map (·.2) =
    declared.eraseDups ++ (observed.filter fun label => label ∉ declared).eraseDups
  /-- A code has the label that it is listed with. -/
  labelOf?_iff : ∀ code label, book.labelOf? code = some label ↔ (code, label) ∈ book.entries
  /-- The codes by label are the inverse of the labels by code. -/
  inverse : ∀ label code, book.codes[label]? = some code ↔ book.labelOf? code = some label
  /-- A label is answered with the code that it has. A label that has no code makes the codebook
  grow. -/
  codeOfLabel_iff : ∀ code label,
    book.codeOfLabel label = (some code, book) ↔ book.labelOf? code = some label
  /-- The next code is the one behind the known codes. -/
  nextCode : book.nextCode = book.size + 1

/-- A label is given a code by a codebook that does not change exactly if it has that code. -/
theorem Consistent.codeOfLabel_iff (h : book.Consistent) (code : ℤ) (label : String) :
    book.codeOfLabel label = (some code, book) ↔ book.labelOf? code = some label := by
  rw [← h.inverse, codeOfLabel]
  cases hcode : book.codes[label]? with
  | some known => simp [assign_of_known hcode]
  | none =>
    -- A label that is entered moves the next code.
    have hgrown : book.enter label ≠ book := fun heq => by
      have hnext : book.nextCode + 1 = book.nextCode := congrArg nextCode heq
      omega
    simp [assign_of_new hcode, hgrown]

/-- A consistent codebook of some labels in the right order numbers them in that order. -/
theorem Lists.numbersInOrder {declared observed : List String} (hconsistent : book.Consistent)
    (h : book.Lists (declared ++ observed).eraseDups) :
    book.NumbersInOrder declared observed where
  codes := by
    have hsize := hconsistent.counted
    rw [h.nextCode_eq] at hsize
    rw [h.entries_eq, (Coder.labels_positional _).1]
    congr 2
    omega
  labels := by
    rw [h.entries_eq, (Coder.labels_positional _).2, List.eraseDups_append, List.removeAll]
    simp
  labelOf?_iff code label := by
    rw [h.entries_eq, h.labelOf?_eq, Coder.mem_labels_positional_iff]
  inverse := hconsistent.inverse
  codeOfLabel_iff := hconsistent.codeOfLabel_iff
  nextCode := hconsistent.counted

/-- A coder shows the codes and the labels of a codebook. -/
structure ShownBy (book : Codebook) (coder : Coder) : Prop where
  entries : coder.labels = book.entries
  labelOf? : ∀ code, coder.labelOf? code = book.labelOf? code
  size : coder.size = book.size

/-- The coder that lists the labels of a codebook shows it. -/
theorem Lists.shownBy {labels : List String} (h : book.Lists labels) :
    book.ShownBy (.positional labels) where
  entries := h.entries_eq.symm
  labelOf? code := (h.labelOf?_eq code).symm
  size := by rw [Coder.size, ← h.entries_eq, entries, Std.TreeMap.length_toList, Codebook.size]

/-- Whatever the codebook of a nominal score is asked, every request is answered, the codes are the
positions of the labels in the order of the scale and of their first observation, and two requests
get the same code exactly if they are for the same label. A number is the same request as its plain
form. The coder of the score gives the same answers and shows the codebook. -/
theorem nominal_answers_numbersInOrder (scale : Option (List ScaleEntry))
    (requests : List CodeRequest) :
    ∃ codes book, (nominal scale).answers requests = (codes, book) ∧
      book.AnswersWith requests codes ∧
      book.NumbersInOrder ((scale.getD []).map (·.label)) (requests.map (·.category)) ∧
      (∀ (i j : ℕ) (first second : CodeRequest), requests[i]? = some first →
        requests[j]? = some second →
        (codes[i]? = codes[j]? ↔ first.category = second.category)) ∧
      (∀ x : Float, book.code (.number x) = book.code (.label (plainNumber x)) ∧
        book.code (.number x) = book.codeOfLabel (plainNumber x)) ∧
      ∃ coder, (Coder.nominal (scale.getD [])).answers requests = (codes, coder) ∧
        book.ShownBy coder := by
  obtain ⟨hstart, hdeclared⟩ := nominal_spec scale
  have hconsistent := hstart.answers requests
  have hwith := hstart.answersWith requests
  obtain ⟨hlists, hcoder⟩ := hdeclared.answers hstart requests
  rw [← (Coder.nominal_eq_positional (scale.getD [])).1] at hcoder
  exact ⟨_, _, rfl, hwith, hlists.numbersInOrder hconsistent,
    fun _ _ _ _ => hwith.getElem?_eq_iff hconsistent, fun x => ⟨rfl, rfl⟩, _, hcoder,
    hlists.shownBy⟩

/-- A scale with a repeated label, numbers, and labels that spell them. The number one and the text
of it have one code, behind the codes of the scale. -/
theorem nominal_answers_numbersInOrder_one :
    let scale : List ScaleEntry := [⟨"red", 10⟩, ⟨"blue", 5⟩, ⟨"red", 7⟩]
    let requests : List CodeRequest := [.raw (.number 1), .label "blue", .raw (.label "1"),
      .raw (.number 2.5), .label "1", .raw (.label "red"), .raw (.number 1)]
    let codes : List (Option ℤ) := [some 3, some 2, some 3, some 4, some 3, some 1, some 3]
    ∃ book, (nominal (some scale)).answers requests = (codes, book) ∧
      book.entries = [(1, "red"), (2, "blue"), (3, "1"), (4, "2.5")] ∧
      book.AnswersWith requests codes ∧
      book.NumbersInOrder ["red", "blue", "red"] ["1", "blue", "1", "2.5", "1", "red", "1"] := by
  intro scale requests codes
  obtain ⟨codes', book, hanswers, hwith, hordered, -⟩ :=
    nominal_answers_numbersInOrder (some scale) requests
  have hcodes : ((nominal (some scale)).answers requests).1 = codes := by decide +kernel
  have hcategories : requests.map (·.category) = ["1", "blue", "1", "2.5", "1", "red", "1"] := by
    decide +kernel
  have hentries : ((nominal (some scale)).answers requests).2.entries =
      [(1, "red"), (2, "blue"), (3, "1"), (4, "2.5")] := by decide +kernel
  rw [hanswers] at hcodes hentries
  obtain rfl : codes' = codes := hcodes
  rw [hcategories] at hordered
  exact ⟨book, hanswers, hentries, hwith, hordered⟩

end Codebook

end Scorebook
