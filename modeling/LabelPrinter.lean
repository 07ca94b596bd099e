import LabelPrinter.Template
import LabelPrinter.Usb.Bench
import LabelPrinter.Program.UsbIds
import LabelPrinter.Program.UsbLabel
import LabelPrinter.Program.StatusMonitor
import LabelPrinter.Program.PrintLogo
import LabelPrinter.Proofs.Command.Decoding
import LabelPrinter.Proofs.Command.Validity
import LabelPrinter.Proofs.Label.Outputs
import LabelPrinter.Proofs.Label.Reader
import LabelPrinter.Proofs.Link.Channels
import LabelPrinter.Proofs.Link.Rejection
import LabelPrinter.Proofs.Listener.Delivery
import LabelPrinter.Proofs.Listener.Isolation
import LabelPrinter.Proofs.Tcp.Lifecycle
import LabelPrinter.Proofs.Tcp.Balance
import LabelPrinter.Proofs.Tcp.Replies
import LabelPrinter.Proofs.Usb.SessionLog
import LabelPrinter.Proofs.Usb.Sending
import LabelPrinter.Proofs.Usb.Boundaries
import LabelPrinter.Proofs.Usb.Lookup
import LabelPrinter.Proofs.Usb.Holding
import LabelPrinter.Proofs.Charset.Units
import LabelPrinter.Proofs.Reply.Text
import LabelPrinter.Proofs.Tcp.Texts
import LabelPrinter.Proofs.Command.Raster
import LabelPrinter.Proofs.Usb.Topology
import LabelPrinter.Proofs.Label.Ascii
import LabelPrinter.Proofs.Link.PlainText
import LabelPrinter.Proofs.Number.Exact
import LabelPrinter.Proofs.Command.Multipliers
import LabelPrinter.Proofs.Command.Carrier
import LabelPrinter.Proofs.Command.Decoding.Untagged
import LabelPrinter.Proofs.Template.Order
import LabelPrinter.Proofs.Listener.Tally
import LabelPrinter.Proofs.Link.Hearing
import LabelPrinter.Proofs.Command.Clearing
import LabelPrinter.Proofs.Usb.Endpoints
import LabelPrinter.Proofs.Usb.Relisting
import LabelPrinter.Proofs.Reply.Partition
import LabelPrinter.Proofs.Usb.Selection
import LabelPrinter.Proofs.Line.Separators
