import ContractScan.Listing
import ContractScan.Main
import ContractScan.Proofs.BracketFindings
import ContractScan.Proofs.Checking
import ContractScan.Proofs.Columns
import ContractScan.Proofs.Comments
import ContractScan.Proofs.Delimiters
import ContractScan.Proofs.Findings
import ContractScan.Proofs.FoldFamilies
import ContractScan.Proofs.FoldingRanges
import ContractScan.Proofs.Highlighting
import ContractScan.Proofs.IndentedBlocks
import ContractScan.Proofs.LineEndings.Scans
import ContractScan.Proofs.Numerals
import ContractScan.Proofs.OperatorRuns
import ContractScan.Proofs.Options
import ContractScan.Proofs.Partners
import ContractScan.Proofs.Precedence
import ContractScan.Proofs.Readings
import ContractScan.Proofs.RegionFolds
import ContractScan.Proofs.Separation
import ContractScan.Proofs.Sessions
import ContractScan.Proofs.StringLiterals
import ContractScan.Proofs.TokenTable
import ContractScan.Proofs.UnitColumns
import ContractScan.Proofs.Words
import ContractScan.Sample
