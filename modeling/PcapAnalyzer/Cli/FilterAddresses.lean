import PcapAnalyzer.Cli.Arguments
import PcapAnalyzer.Protocols.AddressPrinting

/-!
# Printed addresses on the command line

An address printed by the program may be given to it as a filter. The two grammars have no text
in common, so that the version is the printed one.
-/

namespace PcapAnalyzer.Cli

set_option autoImplicit false

/-- No text is an address of both versions. -/
theorem not_both_versions {text v4 v6 : List UInt8}
    (four : (Ip.V4.addressFromString text v4).1 = true)
    (six : (Ip.V6.addressFromString text v6).1 = true) : False :=
  Ip.V6.accepted_no_dot six (Ip.V4.accepted_dot (by decide : 0 < 3) four)

theorem parse_filter_ip_v4 {text ip : List UInt8}
    (accepted : Ip.V4.addressFromString text (List.replicate 4 0) = (true, ip)) :
    parseFilterIp text = some (Address.copy ip, true) := by
  rw [parseFilterIp, accepted]
  rfl

theorem parse_filter_ip_v6 {text ip : List UInt8}
    (accepted : Ip.V6.addressFromString text (List.replicate 16 0) = (true, ip)) :
    parseFilterIp text = some (Address.copy ip, false) := by
  have refused : ¬ (Ip.V4.addressFromString text (List.replicate 4 0)).1 = true := fun four =>
    not_both_versions four (by rw [accepted])
  simp only [parseFilterIp, if_neg refused, accepted, if_true]

theorem copy_address (ip : Address) : Address.copy ip.val = ip := by
  have taken : (ip.val ++ List.replicate 16 0).take 16 = ip.val := List.take_left' ip.property
  exact Subtype.ext taken

/-- Both printers are undone by their parsers, no text is accepted by both parsers, and a
filter address that was printed is read as the address and the version it has. -/
theorem printed_addresses_parse_back (v6 out6 : Address)
    (v4 out4 : { octets : List UInt8 // octets.length = 4 }) (word : UInt32) (text : List UInt8) :
    Ip.V6.addressFromString (Ip.V6.printIp v6.val) out6.val = (true, v6.val) ∧
    Ip.V4.addressFromString (Ip.V4.printIp v4.val) out4.val = (true, v4.val) ∧
    Ip.V4.addressFromString (Ip.V4.printIpWord word) out4.val =
      (true, (Address.copyV4 word Address.zero).val.take 4) ∧
    ¬ ((Ip.V4.addressFromString text out4.val).1 = true ∧
      (Ip.V6.addressFromString text out6.val).1 = true) ∧
    parseFilterIp (Ip.V6.printIp v6.val) = some (v6, false) ∧
    parseFilterIp (Ip.V4.printIp v4.val) = some (Address.copy v4.val, true) := by
  refine ⟨Ip.V6.printed_parses v6.property out6.property,
    Ip.V4.printed_parses v4.property out4.property, ?_, fun both => ?_, ?_, ?_⟩
  · rw [Ip.V4.print_ip_word, Ip.V4.printed_parses rfl out4.property]
    rfl
  · exact not_both_versions both.1 both.2
  · rw [parse_filter_ip_v6 (Ip.V6.printed_parses v6.property rfl), copy_address]
  · exact parse_filter_ip_v4 (Ip.V4.printed_parses v4.property rfl)

end PcapAnalyzer.Cli
