import KariDns.Catalog.Checks
import KariDns.Edns.Cookie
import KariDns.Edns.Subnet
import KariDns.Query.Access
import KariDns.Query.GlueSets
import KariDns.Query.ResponseCache
import KariDns.Rdata.Base32
import KariDns.Rdata.TtlText
import KariDns.Server.AclTexts
import KariDns.Server.SteadyClient
import KariDns.Server.Versions
import KariDns.Tinydns.Txt
import KariDns.Transfer.Request
import KariDns.Tsig.Truncate
import KariDns.Wire.Svcb
import KariDns.Zone.Include
import KariDns.Zone.Lexer
import KariDns.Zone.Same
