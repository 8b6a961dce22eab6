import Mathlib.Data.List.GetD
import Specimen.Format.Basic
import Specimen.Proofs.AddressText
import Specimen.Proofs.CalendarText
import Specimen.Proofs.IdentifierText

/-!
# Texts drawn for a format

Every format accepts what it draws, and from the text the drawn instant, identifier or address is
read back.
-/

namespace Specimen

namespace Draw

theorem choose_mem {α : Type} {values : List α} (hne : values ≠ []) (fallback : α) (s : Source) :
    (choose values fallback s).1 ∈ values := by
  have hlt := below32_lt (List.length_pos_iff.mpr hne) s
  have hchoice : (choose values fallback s).1 = values.getD (below32 values.length s).1 fallback :=
    rfl
  rw [hchoice, List.getD_eq_getElem _ _ hlt]
  exact List.getElem_mem hlt

end Draw

namespace Host

/-! ### Names of two labels -/

theorem notMem_of_isLabel {cs : List Char} {c : Char} (h : isLabel cs = true)
    (hc : c.isAlphanum = false) (hhyphen : c ≠ '-') : c ∉ cs := by
  rintro hmem
  simp only [isLabel, Bool.and_eq_true, List.all_eq_true] at h
  have hchar := h.2 c hmem
  simp [hc, hhyphen] at hchar

theorem byteLength_of_isLabel {cs : List Char} (h : isLabel cs = true) :
    byteLength cs ≤ maxLabelLength := by
  simp only [isLabel, Bool.and_eq_true, decide_eq_true_eq] at h
  exact h.1.1.1.2

theorem isName_of_isLabel {word domain : List Char} (hword : isLabel word = true)
    (hdomain : isLabel domain = true) : isName (word ++ '.' :: domain) = true := by
  have hlength : byteLength (word ++ '.' :: domain) =
      byteLength word + (1 + byteLength domain) := by
    have hpoint : (String.ofList ['.']).utf8ByteSize = 1 := rfl
    rw [byteLength, ← List.singleton_append, String.ofList_append, String.ofList_append,
      String.utf8ByteSize_append, String.utf8ByteSize_append, hpoint]
    rfl
  have hsplit : Text.split '.' (word ++ '.' :: domain) = [word, domain] := by
    rw [Text.split_append (notMem_of_isLabel hword rfl (by decide)),
      Text.split_eq_singleton (notMem_of_isLabel hdomain rfl (by decide))]
  have hword' := byteLength_of_isLabel hword
  have hdomain' := byteLength_of_isLabel hdomain
  have hshort : byteLength (word ++ '.' :: domain) ≤ maxLength := by
    rw [hlength]
    unfold maxLabelLength at hword' hdomain'
    unfold maxLength
    omega
  simp [isName, hsplit, hword, hdomain, hshort]

theorem isLabel_of_mem_words {word : String} (h : word ∈ words) : isLabel word.toList = true := by
  have hall : ∀ word ∈ words, isLabel word.toList = true := by decide +kernel
  exact hall word h

theorem isLabel_of_mem_domains {domain : String} (h : domain ∈ domains) :
    isLabel domain.toList = true := by
  have hall : ∀ domain ∈ domains, isLabel domain.toList = true := by decide +kernel
  exact hall domain h

theorem isLabel_drawWord (s : Source) : isLabel (drawWord s).1 = true :=
  isLabel_of_mem_words (Draw.choose_mem (List.cons_ne_nil _ _) "fixture" s)

theorem isName_drawName (s : Source) : isName (drawName s).1 = true :=
  isName_of_isLabel (isLabel_drawWord _)
    (isLabel_of_mem_domains (Draw.choose_mem (List.cons_ne_nil _ _) "com" s))

theorem isMail_drawMail (s : Source) : isMail (drawMail s).1 = true := by
  obtain ⟨number, t, htext⟩ : ∃ number t, (drawMail s).1 =
      ((drawWord s).1 ++ '.' :: Nat.toDigits 10 number) ++ '@' :: (drawName t).1 :=
    ⟨_, _, rfl⟩
  have hword : '@' ∉ (drawWord s).1 := notMem_of_isLabel (isLabel_drawWord s) rfl (by decide)
  have hnumber : '@' ∉ Nat.toDigits 10 number := fun hmem =>
    absurd (Nat.isDigit_of_mem_toDigits (by decide) (by decide) hmem) (by decide)
  have huser : '@' ∉ (drawWord s).1 ++ '.' :: Nat.toDigits 10 number := by
    simp [hword, hnumber]
  rw [isMail, htext, Text.cutAt?_append huser]
  simp [isName_drawName t]

theorem isUri_drawUri (s : Source) : isUri (drawUri s).1 = true := by
  obtain ⟨rest, htext, hne⟩ : ∃ rest, (drawUri s).1 = "https://".toList ++ rest ∧ rest ≠ [] :=
    ⟨_, List.append_assoc _ _ _, by simp⟩
  have hcut : cutScheme? ("https://".toList ++ rest) = some (['h', 't', 't', 'p', 's'], rest) := rfl
  have hscheme : ['h', 't', 't', 'p', 's'].all isSchemeChar = true := by decide
  rw [isUri, htext, hcut]
  simp [hne, hscheme]

end Host

namespace Identifier

theorem stamped_draw (s : Source) : Stamped s.bytes16.1 (draw s).1 :=
  stamped_mark (Source.length_bytes16 s) fun _ => Source.lt_of_mem_bytes16

theorem read?_draw (s : Source) : read? (text (draw s).1) = some (draw s).1 :=
  read?_text (stamped_draw s).length (stamped_draw s).lt

end Identifier

namespace Address

theorem drawAddress4_lt (s : Source) : (drawAddress4 s).1 < 2 ^ 32 :=
  Draw.word32_lt s

theorem drawAddress6_lt (s : Source) : (drawAddress6 s).1 < 2 ^ 128 := by
  have hlow := Draw.word64_lt s
  have hhigh := Draw.word64_lt (Draw.word64 s).2
  change (Draw.word64 (Draw.word64 s).2).1 * 0x10000000000000000 + (Draw.word64 s).1 < 2 ^ 128
  change (Draw.word64 s).1 < 0x10000000000000000 at hlow
  change (Draw.word64 (Draw.word64 s).2).1 < 0x10000000000000000 at hhigh
  omega

end Address

namespace Format

theorem accepts_draw (format : Format) (s : Source) : format.accepts (format.draw s).1 = true := by
  cases format with
  | dateTime => exact congrArg Option.isSome (Calendar.readInstant?_drawInstant s)
  | date => exact congrArg Option.isSome (Calendar.readDate?_drawInstant s)
  | time => exact congrArg Option.isSome (Calendar.readTime?_drawInstant s)
  | email => exact Host.isMail_drawMail s
  | uuid => exact congrArg Option.isSome (Identifier.read?_draw s)
  | uri => exact Host.isUri_drawUri s
  | hostname => exact Host.isName_drawName s
  | ipv4 => exact congrArg Option.isSome (Address.read4?_text4 (Address.drawAddress4_lt s))
  | ipv6 => exact congrArg Option.isSome (Address.read6?_text6 (Address.drawAddress6_lt s))

theorem generate_leaf (format : Format) (s : Source) :
    (format.leaf.generate s).1 = .ok (.str (String.ofList (format.draw s).1)) :=
  rfl

theorem validate_str (format : Format) (cs : List Char) :
    format.leaf.validate (.str (String.ofList cs)) = some (format.accepts cs) := by
  simp [leaf]

theorem exists_generate (format : Format) (s : Source) : ∃ text,
    (format.leaf.generate s).1 = .ok (.str text) ∧
      format.leaf.validate (.str text) = some true := by
  refine ⟨_, generate_leaf format s, ?_⟩
  rw [validate_str, accepts_draw]

/-- A format gives a text from which a reader takes the value. -/
def ReadsAs {α : Type} (format : Format) (s : Source) (read? : List Char → Option α) (value : α) :
    Prop :=
  ∃ text, (format.leaf.generate s).1 = .ok (.str text) ∧ read? text.toList = some value

theorem readsAs_of_draw {α : Type} {format : Format} {s : Source} {read? : List Char → Option α}
    {value : α} (h : read? (format.draw s).1 = some value) : format.ReadsAs s read? value :=
  ⟨_, generate_leaf format s, by rw [String.toList_ofList, h]⟩

/-- Every format accepts what it gives, whatever the source is. From the text an instant between
2000 and 2029, the drawn bytes with the marks of an identifier, and addresses of 32 and of 128 bits
are read back as they were drawn. -/
theorem validate_generate_and_readsAs (s : Source) :
    (∀ format : Format, ∃ text, (format.leaf.generate s).1 = .ok (.str text) ∧
      format.leaf.validate (.str text) = some true) ∧
    (946684800 ≤ (Calendar.drawInstant s).1 ∧ (Calendar.drawInstant s).1 < 1893456000 ∧
      dateTime.ReadsAs s Calendar.readInstant? (Calendar.drawInstant s).1) ∧
    (Identifier.Stamped s.bytes16.1 (Identifier.draw s).1 ∧
      uuid.ReadsAs s Identifier.read? (Identifier.draw s).1) ∧
    ((Address.drawAddress4 s).1 < 2 ^ 32 ∧
      ipv4.ReadsAs s Address.read4? (Address.drawAddress4 s).1) ∧
    ((Address.drawAddress6 s).1 < 2 ^ 128 ∧
      ipv6.ReadsAs s Address.read6? (Address.drawAddress6 s).1) := by
  obtain ⟨hfirst, hend⟩ := Calendar.drawInstant_mem s
  have hinstant := Calendar.readInstant?_drawInstant s
  have hidentifier := Identifier.read?_draw s
  have hfour := Address.drawAddress4_lt s
  have hsix := Address.drawAddress6_lt s
  refine ⟨fun format => exists_generate format s, ⟨hfirst, hend, ?_⟩, ⟨?_, ?_⟩, ⟨hfour, ?_⟩,
    ⟨hsix, ?_⟩⟩
  · exact readsAs_of_draw hinstant
  · exact Identifier.stamped_draw s
  · exact readsAs_of_draw hidentifier
  · exact readsAs_of_draw (Address.read4?_text4 hfour)
  · exact readsAs_of_draw (Address.read6?_text6 hsix)

/-- The longest run of zero groups is left out of an address and read back from two colons. -/
example :
    String.ofList (Address.text6 0x20010db8000000000001000000000001) = "2001:db8::1:0:0:1" := by
  decide +kernel

end Format

end Specimen
