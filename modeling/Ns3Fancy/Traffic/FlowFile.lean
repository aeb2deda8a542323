import Ns3Fancy.Text.Ipv4Address
import Mathlib.Data.Finset.Card

/-!
# The file of flows

Header lines carry a prefix, and the lines between two headers are flows to the prefix of the first. The flows are given an
address by surgery on the text of the prefix, and failures by arithmetic on its number; both mean the same address.
-/

namespace Ns3Fancy.Traffic
open Text
set_option autoImplicit false

def hash : UInt8 := 0x23

def slash : UInt8 := 0x2f

/-- The characters that end a word. -/
def isSpace (c : UInt8) : Bool := c = 0x20 ∨ 0x09 ≤ c ∧ c ≤ 0x0d

/-- `>>` of a word: the string and what is left of the stream. A stream that has failed leaves the string as it was. -/
def extract (old : Chars) : Option Chars → Chars × Option Chars
  | none => (old, none)
  | some stream =>
    match stream.dropWhile isSpace with
    | [] => (old, none)
    | c :: rest => ((c :: rest).takeWhile fun c => !isSpace c, some ((c :: rest).dropWhile fun c => !isSpace c))

/-- `current_prefix` after a header line: its second word. -/
def headerPrefix (currentPrefix line : Chars) : Chars := (extract currentPrefix (extract [] (some line)).2).1

/-- The /24 of an address. -/
def networkOf (ip : UInt32) : UInt32 := ip &&& 0xffffff00

/-- The destination of a flow: the prefix without what follows the slash, the last character replaced by a 1. -/
def dstIp (currentPrefix : Chars) : Chars := (currentPrefix.takeWhile fun c => c ≠ slash).dropLast ++ [0x31]

/-- `FlowMetadata`: the destination, and the fields that are read from the line. -/
structure FlowMetadata (F : Type) where
  prefix_ : Chars
  fields : F

/-- What is kept from line to line. -/
structure Reading (F : Type) where
  currentPrefix : Chars := []
  skip : Bool := false
  fields : F
  flows : List (FlowMetadata F) := []

section
variable {F : Type} (readFields : F → Chars → F) (filter : Finset UInt32)

/-- One line. `readFields` reads the fields of a flow over those of the flow before. -/
def readLine (s : Reading F) (line : Chars) : Option (Reading F) :=
  if line = [] then some s
  else if line.head? = some hash then
    let currentPrefix := headerPrefix s.currentPrefix line
    (asciiToIpv4Host currentPrefix).map fun ip =>
      { s with currentPrefix := currentPrefix, skip := decide (filter.card > 0 ∧ networkOf ip ∉ filter) }
  else if !s.skip then
    let fields := readFields s.fields line
    some { s with fields := fields, flows := s.flows ++ [⟨dstIp s.currentPrefix, fields⟩] }
  else some s

/-- `GetFlowsPerPrefixFromDist`. -/
def getFlowsPerPrefixFromDist (fields : F) (lines : List Chars) : Option (List (FlowMetadata F)) :=
  (lines.foldlM (readLine readFields filter) { fields := fields }).map Reading.flows

end

/-- `GetPrefixesFromDistVector`. -/
def getPrefixesFromDistVector (lines : List Chars) : Option (List UInt32) :=
  (lines.foldlM (fun (s : Chars × List UInt32) line =>
    if line = [] then some s
    else if line.head? = some hash then
      let currentPrefix := headerPrefix s.1 line
      (asciiToIpv4Host currentPrefix).map fun ip => (currentPrefix, s.2 ++ [networkOf ip])
    else some s) ([], [])).map Prod.snd

/-- The address that `HybridFailureScheduler` installs for a prefix. -/
def hybridFailure (prefix_ : UInt32) : UInt32 := prefix_ + 1

/-! ## The files -/

/-- A prefix as it is written in a header: a.b.c.0/24. -/
structure Slash24 where
  a : Octet
  b : Octet
  c : Octet

def Slash24.text (p : Slash24) : Chars :=
  p.a.digits ++ dot :: (p.b.digits ++ dot :: (p.c.digits ++ dot :: [0x30, slash, 0x32, 0x34]))

/-- The number of a prefix. -/
def Slash24.network (p : Slash24) : UInt32 :=
  UInt32.ofNat (p.a.value.toNat * 2 ^ 24 + p.b.value.toNat * 2 ^ 16 + p.c.value.toNat * 2 ^ 8)

/-- A header line: a word that starts with a hash, the prefix as the next word, and maybe more. -/
structure HeaderLine where
  mark : Chars
  gap : Chars
  prefix_ : Slash24
  rest : Chars
  mark_word : ∀ c ∈ mark, isSpace c = false
  gap_space : ∀ c ∈ gap, isSpace c = true
  gap_written : gap ≠ []
  rest_space : ∀ c, rest.head? = some c → isSpace c = true

def HeaderLine.text (h : HeaderLine) : Chars := hash :: h.mark ++ (h.gap ++ (h.prefix_.text ++ h.rest))

/-- The lines of a file. -/
inductive Line where
  | blank
  | header (h : HeaderLine)
  | flow (line : Chars) (written : line ≠ []) (unmarked : line.head? ≠ some hash)

def Line.text : Line → Chars
  | .blank => []
  | .header h => h.text
  | .flow line _ _ => line

/-- The prefixes of the headers. -/
def headers (file : List Line) : List Slash24 :=
  file.filterMap fun line => match line with
    | .header h => some h.prefix_
    | _ => none

/-- The flow lines, each with the prefix of the header that it follows. -/
def flowLines : Option Slash24 → List Line → List (Option Slash24 × Chars)
  | _, [] => []
  | p, .blank :: file => flowLines p file
  | _, .header h :: file => flowLines (some h.prefix_) file
  | p, .flow line _ _ :: file => (p, line) :: flowLines p file

/-- Whether the flows of a prefix are wanted; those before the first header always are. -/
def wanted (filter : Finset UInt32) (p : Option Slash24) : Bool :=
  match p with
  | none => true
  | some p => decide (filter = ∅ ∨ p.network ∈ filter)

/-- The flow lines that are wanted. -/
def wantedLines (filter : Finset UInt32) (p : Option Slash24) (file : List Line) : List (Option Slash24 × Chars) :=
  (flowLines p file).filter fun entry => wanted filter entry.1

/-- The fields read from lines, each over those of the line before. -/
def readAll {F : Type} (readFields : F → Chars → F) : F → List Chars → List F
  | _, [] => []
  | fields, line :: lines => readFields fields line :: readAll readFields (readFields fields line) lines

/-! ## The prefix in a header -/

theorem isSpace_of_digit {c : UInt8} (decimal : 0x30 ≤ c ∧ c ≤ 0x39) : isSpace c = false := by
  rw [UInt8.le_iff_toNat_le, UInt8.le_iff_toNat_le] at decimal
  have low : 48 ≤ c.toNat := decimal.1
  unfold isSpace
  rw [decide_eq_false_iff_not, not_or, not_and, UInt8.le_iff_toNat_le, UInt8.le_iff_toNat_le]
  refine ⟨?_, fun _ most => ?_⟩
  · rintro rfl
    exact absurd low (by decide)
  · have most : c.toNat ≤ 13 := most
    omega

section
variable (p : Slash24)

/-- The characters of a prefix. -/
theorem mem_text {x : UInt8} (mem : x ∈ p.text) :
    (0x30 ≤ x ∧ x ≤ 0x39) ∨ x = dot ∨ x = slash := by
  simp only [Slash24.text, List.mem_append, List.mem_cons, List.not_mem_nil, or_false] at mem
  rcases mem with mem | rfl | mem | rfl | mem | rfl | rfl | rfl | rfl | rfl
  · exact Or.inl (p.a.decimal x mem)
  · exact Or.inr (Or.inl rfl)
  · exact Or.inl (p.b.decimal x mem)
  · exact Or.inr (Or.inl rfl)
  · exact Or.inl (p.c.decimal x mem)
  · exact Or.inr (Or.inl rfl)
  · exact Or.inl (by decide)
  · exact Or.inr (Or.inr rfl)
  · exact Or.inl (by decide)
  · exact Or.inl (by decide)

theorem text_word : ∀ x ∈ p.text, isSpace x = false := by
  intro x mem
  rcases mem_text p mem with digit | rfl | rfl
  · exact isSpace_of_digit digit
  · decide
  · decide

theorem text_written : p.text ≠ [] := by
  intro none
  have first := List.append_eq_nil_iff.1 none
  exact p.a.written first.1

/-- The prefix without what follows the slash. -/
theorem dstIp_text : dstIp p.text =
    p.a.digits ++ dot :: (p.b.digits ++ dot :: (p.c.digits ++ dot :: [0x31])) := by
  have plain : ∀ x ∈ p.a.digits ++ dot :: (p.b.digits ++ dot :: (p.c.digits ++ dot :: [0x30])), x ≠ slash := by
    rintro x mem rfl
    simp only [List.mem_append, List.mem_cons, List.not_mem_nil, or_false] at mem
    rcases mem with mem | same | mem | same | mem | same | same
    · exact absurd (p.a.decimal slash mem).1 (by decide)
    · exact absurd same (by decide)
    · exact absurd (p.b.decimal slash mem).1 (by decide)
    · exact absurd same (by decide)
    · exact absurd (p.c.decimal slash mem).1 (by decide)
    · exact absurd same (by decide)
    · exact absurd same (by decide)
  have split : p.text = (p.a.digits ++ dot :: (p.b.digits ++ dot :: (p.c.digits ++ dot :: [0x30]))) ++ [slash, 0x32, 0x34] := by
    simp [Slash24.text]
  have first : p.text.takeWhile (fun c => decide (c ≠ slash)) =
      p.a.digits ++ dot :: (p.b.digits ++ dot :: (p.c.digits ++ dot :: [0x30])) := by
    rw [split, List.takeWhile_append_of_pos fun x mem => decide_eq_true (plain x mem)]
    simp
  have whole : p.a.digits ++ dot :: (p.b.digits ++ dot :: (p.c.digits ++ dot :: [0x30])) =
      (p.a.digits ++ dot :: (p.b.digits ++ dot :: (p.c.digits ++ [dot]))) ++ [0x30] := by
    simp
  rw [dstIp, first, whole, List.dropLast_concat]
  simp

/-- Whatever is in the place of the last octet is in the last byte of the address. -/
theorem asciiToIpv4Host_last (last : Chars) (plain : ∀ x ∈ last, x ≠ dot) (written : last ≠ []) :
    ∃ ip, asciiToIpv4Host (p.a.digits ++ dot :: (p.b.digits ++ dot :: (p.c.digits ++ dot :: last))) = some ip ∧
      ip.toNat = p.network.toNat + (byteOf last).toNat := by
  refine ⟨_, asciiToIpv4Host_parts p.a.plain p.b.plain p.c.plain plain ⟨p.a.written, p.b.written, p.c.written, written⟩, ?_⟩
  have a := p.a.value.toNat_lt
  have b := p.b.value.toNat_lt
  have c := p.c.value.toNat_lt
  rw [byteOf_octet, byteOf_octet, byteOf_octet]
  have zero : (0 : UInt32).toNat = 0 := rfl
  have first : (hostStep 0 p.a.value).toNat = p.a.value.toNat := by
    rw [toNat_hostStep (by decide), zero, Nat.zero_mul, Nat.zero_add]
  have second : (hostStep (hostStep 0 p.a.value) p.b.value).toNat = p.a.value.toNat * 256 + p.b.value.toNat := by
    rw [toNat_hostStep (by omega), first]
  have third : (hostStep (hostStep (hostStep 0 p.a.value) p.b.value) p.c.value).toNat =
      (p.a.value.toNat * 256 + p.b.value.toNat) * 256 + p.c.value.toNat := by
    rw [toNat_hostStep (by omega), second]
  have network : p.network.toNat = p.a.value.toNat * 2 ^ 24 + p.b.value.toNat * 2 ^ 16 + p.c.value.toNat * 2 ^ 8 := by
    rw [Slash24.network, UInt32.toNat_ofNat']
    omega
  rw [toNat_hostStep (by omega), third, network]
  omega

theorem network_multiple : p.network.toNat % 256 = 0 := by
  rw [Slash24.network, UInt32.toNat_ofNat']
  omega

/-- **The number read from a header** is that of its prefix. -/
theorem networkOf_text : ∃ ip, asciiToIpv4Host p.text = some ip ∧ networkOf ip = p.network := by
  obtain ⟨ip, read, value⟩ := asciiToIpv4Host_last p [0x30, slash, 0x32, 0x34] (by decide +kernel) (List.cons_ne_nil _ _)
  refine ⟨ip, read, UInt32.toNat_inj.1 ?_⟩
  have small := (byteOf [0x30, slash, 0x32, 0x34]).toNat_lt
  have multiple := network_multiple p
  rw [networkOf, toNat_slash24, value]
  omega

/-- **The destination of a flow** is the address at which the prefix fails. -/
theorem address_dstIp : asciiToIpv4Host (dstIp p.text) = some (hybridFailure p.network) := by
  obtain ⟨ip, read, value⟩ := asciiToIpv4Host_last p [0x31] (by decide +kernel) (List.cons_ne_nil _ _)
  have multiple := network_multiple p
  have bound := p.network.toNat_lt
  have one : (byteOf [0x31]).toNat = 1 := by decide
  rw [dstIp_text, read]
  congr 1
  apply UInt32.toNat_inj.1
  have unit : (1 : UInt32).toNat = 1 := rfl
  rw [value, one, hybridFailure, UInt32.toNat_add, unit]
  omega

end

/-- A word and what follows it. -/
theorem split_word {word rest : Chars} (plain : ∀ c ∈ word, isSpace c = false)
    (ends : ∀ c, rest.head? = some c → isSpace c = true) :
    (word ++ rest).takeWhile (fun c => !isSpace c) = word ∧ (word ++ rest).dropWhile (fun c => !isSpace c) = rest := by
  have inWord : ∀ c ∈ word, (!isSpace c) = true := by
    intro c mem
    rw [plain c mem]
    rfl
  rw [List.takeWhile_append_of_pos inWord, List.dropWhile_append_of_pos inWord]
  cases rest with
  | nil => simp
  | cons c rest =>
    have space := ends c rfl
    simp [space]

/-- Reading a word behind spaces. -/
theorem extract_word {gap word rest : Chars} (old : Chars) (spaces : ∀ c ∈ gap, isSpace c = true)
    (plain : ∀ c ∈ word, isSpace c = false) (written : word ≠ []) (ends : ∀ c, rest.head? = some c → isSpace c = true) :
    extract old (some (gap ++ (word ++ rest))) = (word, some rest) := by
  obtain ⟨taken, dropped⟩ := split_word plain ends
  obtain ⟨first, others, rfl⟩ := List.exists_cons_of_ne_nil written
  have starts : (gap ++ (first :: others ++ rest)).dropWhile isSpace = first :: (others ++ rest) := by
    rw [List.dropWhile_append_of_pos spaces, List.cons_append, List.dropWhile_cons_of_neg]
    rw [plain first List.mem_cons_self]
    decide
  rw [extract, starts]
  exact Prod.ext taken (congrArg some dropped)

/-- The second word of a header line. -/
theorem headerPrefix_text (current : Chars) (h : HeaderLine) : headerPrefix current h.text = h.prefix_.text := by
  have mark : ∀ c ∈ hash :: h.mark, isSpace c = false := by
    intro c mem
    rcases List.mem_cons.1 mem with rfl | mem
    · decide
    · exact h.mark_word c mem
  have gap : ∀ c, (h.gap ++ (h.prefix_.text ++ h.rest)).head? = some c → isSpace c = true := by
    obtain ⟨space, gap, gap_eq⟩ := List.exists_cons_of_ne_nil h.gap_written
    intro c first
    rw [gap_eq] at first
    cases first
    exact h.gap_space space (gap_eq ▸ List.mem_cons_self)
  have first : extract [] (some ([] ++ (hash :: h.mark ++ (h.gap ++ (h.prefix_.text ++ h.rest))))) =
      (hash :: h.mark, some (h.gap ++ (h.prefix_.text ++ h.rest))) :=
    extract_word [] nofun mark (List.cons_ne_nil _ _) gap
  rw [List.nil_append] at first
  rw [headerPrefix, HeaderLine.text, first, extract_word current h.gap_space (text_word h.prefix_)
    (text_written h.prefix_) h.rest_space]

/-! ## Reading a file -/

/-- What is kept after lines, by the last header. -/
structure After (filter : Finset UInt32) (p : Option Slash24) {F : Type} (s : Reading F) : Prop where
  current : s.currentPrefix = match p with
    | none => []
    | some p => p.text
  skip : s.skip = !wanted filter p

/-- A flow of a flow line. -/
def flowOf {F : Type} (entry : Option Slash24 × Chars) (fields : F) : FlowMetadata F where
  prefix_ := match entry.1 with
    | none => [0x31]
    | some p => dstIp p.text
  fields := fields

section
variable {F : Type} {readFields : F → Chars → F} {filter : Finset UInt32} {s : Reading F} {p : Option Slash24}

theorem readLine_header (s : Reading F) (h : HeaderLine) : readLine readFields filter s h.text =
    some { s with currentPrefix := h.prefix_.text, skip := !wanted filter (some h.prefix_) } := by
  obtain ⟨ip, read, network⟩ := networkOf_text h.prefix_
  have marked : h.text.head? = some hash := rfl
  have written : h.text ≠ [] := List.cons_ne_nil _ _
  have skipped : decide (filter.card > 0 ∧ networkOf ip ∉ filter) = !wanted filter (some h.prefix_) := by
    rw [wanted, network, ← decide_not, decide_eq_decide, not_or, gt_iff_lt, Finset.card_pos, Finset.nonempty_iff_ne_empty]
  rw [readLine, if_neg written, if_pos marked, headerPrefix_text]
  dsimp only
  rw [read, Option.map_some, skipped]

theorem readLine_flow (after_ : After filter p s) {line : Chars} (written : line ≠ []) (unmarked : line.head? ≠ some hash) :
    readLine readFields filter s line = some (if wanted filter p then
      { s with fields := readFields s.fields line, flows := s.flows ++ [flowOf (p, line) (readFields s.fields line)] }
    else s) := by
  have destination : dstIp s.currentPrefix = (flowOf (p, line) (readFields s.fields line)).prefix_ := by
    rw [after_.current]
    cases p <;> rfl
  rw [readLine, if_neg written, if_neg unmarked, after_.skip, Bool.not_not, destination]
  split <;> rfl

/-- **Reading lines**: the flows of the lines that are wanted come behind those read before. -/
theorem readLines (after_ : After filter p s) (file : List Line) :
    ((file.map Line.text).foldlM (readLine readFields filter) s).map Reading.flows =
      some (s.flows ++ List.zipWith flowOf (wantedLines filter p file)
        (readAll readFields s.fields ((wantedLines filter p file).map Prod.snd))) := by
  induction file generalizing s p with
  | nil =>
    show some s.flows = _
    rw [wantedLines, flowLines]
    simp
  | cons line file ih =>
    rw [List.map_cons, List.foldlM_cons]
    cases line with
    | blank => exact ih after_
    | header h =>
      have next : After filter (some h.prefix_)
          { s with currentPrefix := h.prefix_.text, skip := !wanted filter (some h.prefix_) } := ⟨rfl, rfl⟩
      show ((readLine readFields filter s h.text).bind _).map _ = _
      rw [readLine_header, Option.bind_some]
      exact ih next
    | flow line written unmarked =>
      have step : wantedLines filter p (.flow line written unmarked :: file) =
          if wanted filter p then (p, line) :: wantedLines filter p file else wantedLines filter p file := by
        rw [wantedLines, flowLines, List.filter_cons]
        rfl
      show ((readLine readFields filter s line).bind _).map _ = _
      rw [readLine_flow after_ written unmarked, Option.bind_some, step]
      split
      · rename_i here
        have next : After filter p { s with
            fields := readFields s.fields line, flows := s.flows ++ [flowOf (p, line) (readFields s.fields line)] } :=
          ⟨after_.current, after_.skip⟩
        rw [ih next, List.map_cons, readAll, List.zipWith_cons_cons, List.append_assoc, List.singleton_append]
      · exact ih after_

/-- **The prefixes of the headers**, in order. -/
theorem readPrefixes (file : List Line) : getPrefixesFromDistVector (file.map Line.text) =
    some ((headers file).map Slash24.network) := by
  have from_ : ∀ (file : List Line) (current : Chars) (prefixes : List UInt32),
      ((file.map Line.text).foldlM (fun (s : Chars × List UInt32) line =>
        if line = [] then some s
        else if line.head? = some hash then
          let currentPrefix := headerPrefix s.1 line
          (asciiToIpv4Host currentPrefix).map fun ip => (currentPrefix, s.2 ++ [networkOf ip])
        else some s) (current, prefixes)).map Prod.snd = some (prefixes ++ (headers file).map Slash24.network) := by
    intro file
    induction file with
    | nil =>
      intro current prefixes
      show some prefixes = some (prefixes ++ [])
      rw [List.append_nil]
    | cons line file ih =>
      intro current prefixes
      rw [List.map_cons, List.foldlM_cons]
      cases line with
      | blank => exact ih current prefixes
      | header h =>
        obtain ⟨ip, read, network⟩ := networkOf_text h.prefix_
        have marked : (Line.header h).text.head? = some hash := rfl
        have written : (Line.header h).text ≠ [] := List.cons_ne_nil _ _
        have second : headerPrefix current (Line.header h).text = h.prefix_.text := headerPrefix_text current h
        rw [if_neg written, if_pos marked]
        dsimp only
        rw [second, read, Option.map_some, network]
        show Option.map _ (Option.bind (some _) _) = _
        rw [Option.bind_some, ih, List.append_assoc]
        rfl
      | flow line written unmarked =>
        have plain : (Line.flow line written unmarked).text = line := rfl
        rw [plain, if_neg written, if_neg unmarked]
        exact ih current prefixes
  exact from_ file [] []

end

/-- Lines whose headers carry prefixes are the lines of a file. -/
theorem exists_file {lines : List Chars} (carry : ∀ line ∈ lines, line.head? = some hash → ∃ h : HeaderLine, h.text = line) :
    ∃ file : List Line, file.map Line.text = lines := by
  induction lines with
  | nil => exact ⟨[], rfl⟩
  | cons line lines ih =>
    obtain ⟨file, rfl⟩ := ih fun other mem => carry other (List.mem_cons_of_mem line mem)
    by_cases written : line = []
    · exact ⟨.blank :: file, by rw [written]; rfl⟩
    · by_cases marked : line.head? = some hash
      · obtain ⟨h, rfl⟩ := carry line List.mem_cons_self marked
        exact ⟨.header h :: file, rfl⟩
      · exact ⟨.flow line written marked :: file, rfl⟩

theorem length_readAll {F : Type} (readFields : F → Chars → F) (fields : F) (lines : List Chars) :
    (readAll readFields fields lines).length = lines.length := by
  induction lines generalizing fields with
  | nil => rfl
  | cons line lines ih => rw [readAll, List.length_cons, ih, List.length_cons]

/-- **The traffic and the failures agree.** Lines whose headers carry prefixes are those of a file, and for every file and
filter the flows are the wanted flow lines in order, each to the address at which the prefix of its header fails; the flow lines
before the first header are among them and have no address. The prefixes are those of the headers in order. -/
theorem flow_file :
    (∀ lines : List Chars, (∀ line ∈ lines, line.head? = some hash → ∃ h : HeaderLine, h.text = line) →
      ∃ file : List Line, file.map Line.text = lines) ∧
    (∀ (F : Type) (readFields : F → Chars → F) (filter : Finset UInt32) (fields : F) (file : List Line),
      ∃ flows, getFlowsPerPrefixFromDist readFields filter fields (file.map Line.text) = some flows ∧
        flows.map FlowMetadata.fields = readAll readFields fields ((wantedLines filter none file).map Prod.snd) ∧
        flows.map (fun flow => asciiToIpv4Host flow.prefix_) =
          (wantedLines filter none file).map fun entry => entry.1.map fun p => hybridFailure p.network) ∧
    ∀ file : List Line, getPrefixesFromDistVector (file.map Line.text) = some ((headers file).map Slash24.network) := by
  refine ⟨fun lines carry => exists_file carry, fun F readFields filter fields file => ?_, readPrefixes⟩
  have start : After filter none ({ fields := fields } : Reading F) := ⟨rfl, rfl⟩
  have length := length_readAll readFields fields ((wantedLines filter none file).map Prod.snd)
  rw [List.length_map] at length
  refine ⟨_, readLines start file, ?_, ?_⟩
  · rw [List.nil_append, List.map_zipWith]
    apply List.ext_getElem
    · rw [List.length_zipWith, length, Nat.min_self]
    · intro i inside _
      rw [List.getElem_zipWith]
      rfl
  · rw [List.nil_append, List.map_zipWith]
    apply List.ext_getElem
    · rw [List.length_zipWith, length, Nat.min_self, List.length_map]
    · intro i inside _
      rw [List.length_zipWith, length, Nat.min_self] at inside
      rw [List.getElem_zipWith, List.getElem_map]
      cases header : (wantedLines filter none file)[i].1 with
      | none =>
        rw [flowOf, header]
        rfl
      | some p =>
        rw [flowOf, header]
        exact address_dstIp p

/-! ## What the filter is for -/

/-- The flow lines of the prefixes of the filter; all of them without a filter. -/
def pickedLines (filter : Finset UInt32) (file : List Line) : List (Option Slash24 × Chars) :=
  (flowLines none file).filter fun entry => decide (filter = ∅) || entry.1.any fun p => decide (p.network ∈ filter)

/-- With a filter only its prefixes are picked, in order, each to the address at which it fails, and the failures are taken from
the headers. -/
def Agrees {F : Type} (readFields : F → Chars → F) (filter : Finset UInt32) (fields : F) (file : List Line) : Prop :=
  (∃ flows, getFlowsPerPrefixFromDist readFields filter fields (file.map Line.text) = some flows ∧
    flows.map FlowMetadata.fields = readAll readFields fields ((pickedLines filter file).map Prod.snd) ∧
    flows.map (fun flow => asciiToIpv4Host flow.prefix_) =
      (pickedLines filter file).map fun entry => entry.1.map fun p => hybridFailure p.network) ∧
  getPrefixesFromDistVector (file.map Line.text) = some ((headers file).map Slash24.network)

/-- The lines that are picked are among those that are returned. -/
theorem pickedLines_eq (filter : Finset UInt32) (file : List Line) : pickedLines filter file =
    (wantedLines filter none file).filter fun entry =>
      decide (filter = ∅) || entry.1.any fun p => decide (p.network ∈ filter) := by
  rw [pickedLines, wantedLines, List.filter_filter]
  refine List.filter_congr fun entry _ => ?_
  obtain ⟨p, line⟩ := entry
  cases p with
  | none => simp [wanted]
  | some p => simp [wanted]

/-- The header of 10.0.0.0/24. -/
def tenHeader : HeaderLine where
  mark := []
  gap := [0x20]
  prefix_ :=
    { a := ⟨[0x31, 0x30], by decide +kernel, by decide +kernel, 10, by decide +kernel⟩
      b := ⟨[0x30], by decide +kernel, by decide +kernel, 0, by decide +kernel⟩
      c := ⟨[0x30], by decide +kernel, by decide +kernel, 0, by decide +kernel⟩ }
  rest := []
  mark_word := by decide +kernel
  gap_space := by decide +kernel
  gap_written := by decide
  rest_space := nofun

end Ns3Fancy.Traffic
