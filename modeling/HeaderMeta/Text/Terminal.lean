/-!
# Text for terminals

A text may hold control sequences, which a terminal acts on and does not show. `Terminal.strong` and
`Terminal.heading` use them to set a word off; `Terminal.plain` leaves them out, and with them every
control but those of layout. A plain text is shown to the last character (`isShown_of_mem_plain`),
and a text that is shown to the last character is plain already (`plain_eq_self`).
-/

namespace HeaderMeta.Text.Terminal

/-- Tab, line feed, form feed and carriage return. -/
def isLayout (c : Char) : Bool :=
  c == '\t' || c == '\n' || c == '\x0c' || c == '\r'

/-- What is shown where no sequence is open: all but the controls that lay nothing out. -/
def isShown (c : Char) : Bool :=
  isLayout c || ' ' ≤ c && c != '\x7f'

/-- The characters that come between the introducer of a sequence and its parameters or end. -/
def isIntermediate (c : Char) : Bool :=
  ' ' ≤ c && c ≤ '/'

/-- The characters that end the parameters of a sequence. -/
def isFinal (c : Char) : Bool :=
  '@' ≤ c && c ≤ '~'

/-- Where in a sequence a text stands. -/
inductive State where
  /-- In none. -/
  | outside
  /-- Behind an escape character. -/
  | escape
  /-- In a sequence of three characters or more, before the last. -/
  | intermediate
  /-- In a command, before the letter that ends it. -/
  | command
  /-- Behind the introducer of a device's data. -/
  | device
  /-- In the parameters of a device's data. -/
  | deviceParameters
  /-- Behind the parameters of a device's data. -/
  | deviceIntermediate
  /-- In data up to a string terminator. -/
  | data
  /-- In a system command, up to a bell. -/
  | system
deriving DecidableEq

namespace State

/-- The byte that ends data. Data are bytes, so it counts inside a character's form too. -/
def terminator : UInt8 := 0x9c

/-- What the introducer behind an escape character opens. -/
def ofIntroducer (c : Char) : State :=
  if isIntermediate c then intermediate
  else if c = '[' then command
  else if c = ']' then system
  else if c = 'P' then device
  else if c = 'X' ∨ c = '^' ∨ c = '_' then data
  else if '0' ≤ c ∧ c ≤ '~' then outside
  else escape

/-- The state behind a character that is not shown. An escape character opens a sequence anywhere,
and the two characters that cancel close any. -/
def next (c : Char) (s : State) : State :=
  if c = '\x1b' then escape
  else if c = '\x18' ∨ c = '\x1a' then outside
  else match s with
  | outside => outside
  | escape => ofIntroducer c
  | intermediate => if '0' ≤ c ∧ c ≤ '~' then outside else intermediate
  | command => if isFinal c then outside else command
  | device =>
    if isFinal c then data
    else if isIntermediate c then deviceIntermediate
    else if '0' ≤ c ∧ c ≤ '?' then deviceParameters
    else device
  | deviceParameters =>
    if isFinal c ∨ '<' ≤ c ∧ c ≤ '?' then data
    else if isIntermediate c then deviceIntermediate
    else deviceParameters
  | deviceIntermediate => if isFinal c ∨ '0' ≤ c ∧ c ≤ '?' then data else deviceIntermediate
  | data => if (String.utf8EncodeChar c).contains terminator then outside else data
  | system => if c = '\x07' then outside else system

/-- Whether controls keep their effect inside a sequence. -/
def obeysControls : State → Bool
  | outside | escape | intermediate | command => true
  | device | deviceParameters | deviceIntermediate | data | system => false

end State

/-- What is shown of a text that starts in a state. A layout control inside a sequence is shown, and
so is what follows it, up to the next character that is not (`showing`); only then the sequence goes
on, unless a character beyond ASCII has closed it. -/
def shown (s : State) (showing : Bool) : List Char → List Char
  | [] => []
  | c :: r =>
    if (showing || s = .outside) && isShown c then
      c :: shown (if c.toNat < 0x80 then s else .outside) true r
    else if s.obeysControls && isLayout c then c :: shown s true r
    else shown (s.next c) false r

/-- A text without what a terminal does not show. -/
def plain (s : String) : String :=
  String.ofList (shown .outside true s.toList)

/-- A text in bold. -/
def strong (s : String) : String :=
  "\x1b[1m" ++ s ++ "\x1b[0m"

/-- A text in bold with a line under it. -/
def heading (s : String) : String :=
  "\x1b[1m\x1b[4m" ++ s ++ "\x1b[0m"

variable {c : Char} {s : State} {b : Bool} {t : List Char}

theorem isShown_of_isLayout (h : isLayout c = true) : isShown c = true := by
  simp [isShown, h]

theorem isShown_of_mem_shown (h : c ∈ shown s b t) : isShown c = true := by
  fun_induction shown s b t with
  | case1 => cases h
  | case2 s b d r hd ih =>
    rcases List.mem_cons.1 h with rfl | h
    · exact (Bool.and_eq_true_iff.1 hd).2
    · exact ih h
  | case3 s b d r _ hd ih =>
    rcases List.mem_cons.1 h with rfl | h
    · exact isShown_of_isLayout (Bool.and_eq_true_iff.1 hd).2
    · exact ih h
  | case4 s b d r _ _ ih => exact ih h

theorem isShown_of_mem_plain {s : String} (h : c ∈ (plain s).toList) : isShown c = true := by
  rw [plain, String.toList_ofList] at h
  exact isShown_of_mem_shown h

theorem shown_eq_self (h : ∀ c ∈ t, isShown c = true) : shown .outside b t = t := by
  induction t generalizing b with
  | nil => rfl
  | cons c t ih =>
    obtain ⟨hc, ht⟩ := List.forall_mem_cons.1 h
    simp [shown, hc, ih ht]

theorem plain_eq_self {s : String} (h : ∀ c ∈ s.toList, isShown c = true) : plain s = s := by
  rw [plain, shown_eq_self h, String.ofList_toList]

end HeaderMeta.Text.Terminal
